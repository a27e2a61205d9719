import CaretName.Proofs.Grammar.Contents

/-!
# How constructs are nested

Three more things that the rules of the grammar guarantee of all trees: a file is part of no other
construct, the operands of a binary operator stand on both sides of it, and parentheses hold one
expression.
-/
namespace CaretName

/-! ## The order of what grows -/

/-- What grows into a construct in a role comes first in it, and what follows is foreseen by the
growth. -/
theorem Rule.order_grownShape {π : Type} {known : π → List Look} {seed : Rule π}
    {growths : List (Growth (Rule π))} {growth : Growth (Rule π)} {role : Role}
    {order rest : List (List Sight)} (own : seed.order known = .some order)
    (single : order.length = 1) (roleless : ∀ sight ∈ seed.sights known, sight.role = none)
    (essential : growths.all (·.construct.isEssential) = true)
    (inRole : growth.role = .some role) (tail : growth.tail.order known = .some rest) :
    ∃ firsts, (grownShape known seed growths growth).order = .some (firsts :: rest) ∧
      ∀ sight ∈ firsts, sight.role = .some role := by
  have grown : (grow seed growths).order known =
      .some [seed.sights known ++ growths.map Growth.sight] := by
    rw [Rule.order, own, Option.bind_some, single, essential]
    rfl
  refine ⟨_, by rw [grownShape, grown, tail]; rfl, fun sight listed => ?_⟩
  obtain ⟨before, found, rfl⟩ := List.mem_map.mp listed
  have free : before.role = none := by
    rcases List.mem_append.mp found with seed | growth
    · exact roleless before seed
    · obtain ⟨_, _, rfl⟩ := List.mem_map.mp growth
      rfl
  rw [Sight.inRole, free, inRole]
  rfl

/-- The nodes of the children that are no comments are the essential ones of the node. -/
theorem Place.map_node_filter (place : Place) :
    (place.children.filter (!·.node.isExtra)).map Place.node =
      Node.essentials place.node.children := by
  rw [Node.essentials, ← map_node_children, List.filter_map]
  rfl

namespace Grammar

/-! ## What the rules guarantee -/

/-- Whether the children of a construct are two operands with an operator between. -/
def isOperation (order : Option (List (List Sight))) : Bool :=
  match order with
  | some [lefts, [⟨.mark, some .operator⟩], rights] =>
    lefts.all (·.role == some .left) && rights.all (·.role == some .right)
  | _ => false

/-- The first of three is the left operand if it is sure to be in this role. -/
theorem isOperation_cons {firsts : List Sight} {rest : List (List Sight)}
    (tail : isOperation (some ([] :: rest)) = true)
    (lefts : ∀ sight ∈ firsts, sight.role = some .left) :
    isOperation (some (firsts :: rest)) = true := by
  unfold isOperation at tail ⊢
  split at tail
  · next same =>
    simp only [Option.some.injEq, List.cons.injEq] at same
    obtain ⟨rfl, rfl⟩ := same
    rw [Bool.and_eq_true, List.all_eq_true]
    exact ⟨fun sight listed => by simp [lefts sight listed], (Bool.and_eq_true_iff.mp tail).2⟩
  · contradiction

/-- Nodes that are foreseen so are two nodes in the roles of operands with a mark between. -/
theorem inOrder_of_isOperation {shape : Shape} {node : Node}
    (expected : isOperation shape.order = true) (fits : shape.Fits node) :
    ∃ left operator right text, Node.essentials node.children = [left, operator, right] ∧
      left.role = some .left ∧ operator.role = some .operator ∧ right.role = some .right ∧
      operator.kind = .mark text := by
  unfold isOperation at expected
  split at expected
  · next lefts rights same =>
    simp only [Bool.and_eq_true, List.all_eq_true, beq_iff_eq] at expected
    obtain ⟨matched, _⟩ := fits.order _ same
    simp only [Sight.InOrder, List.forall₂_cons_left_iff, List.forall₂_nil_left_iff,
      List.mem_singleton, exists_eq_left] at matched
    obtain ⟨left, _, ⟨first, isFirst, looksLeft⟩, ⟨operator, _, ⟨mark, roleOperator⟩,
      ⟨right, _, ⟨second, isSecond, looksRight⟩, rfl, rfl⟩, rfl⟩, essentials⟩ := matched
    obtain ⟨text, isMark⟩ := mark
    exact ⟨left, operator, right, text, essentials,
      looksLeft.2.trans (expected.1 first isFirst), roleOperator,
      looksRight.2.trans (expected.2 second isSecond), isMark⟩
  · contradiction

/-- Whether the children of a construct are one between two marks. -/
def isGrouping (order : Option (List (List Sight))) : Bool :=
  match order with
  | some [[⟨.mark, none⟩], _, [⟨.mark, none⟩]] => true
  | _ => false

/-- Nodes that are foreseen so are one node between two marks. -/
theorem inOrder_of_isGrouping {shape : Shape} {node : Node}
    (expected : isGrouping shape.order = true) (fits : shape.Fits node) :
    ∃ opening inner closing first last, Node.essentials node.children = [opening, inner, closing] ∧
      opening.kind = .mark first ∧ closing.kind = .mark last := by
  unfold isGrouping at expected
  split at expected
  · next looks same =>
    obtain ⟨matched, _⟩ := fits.order _ same
    simp only [Sight.InOrder, List.forall₂_cons_left_iff, List.forall₂_nil_left_iff,
      List.mem_singleton, exists_eq_left] at matched
    obtain ⟨opening, _, ⟨before, _⟩, ⟨inner, _, _, ⟨closing, _, ⟨after, _⟩, rfl, rfl⟩, rfl⟩,
      essentials⟩ := matched
    obtain ⟨first, opens⟩ := before
    obtain ⟨last, closes⟩ := after
    exact ⟨opening, inner, closing, first, last, essentials, opens, closes⟩
  · contradiction

/-- Whether a construct is no file, and the children of a binary operator or of parentheses are as
expected. -/
def nestedShape (shape : Shape) : Bool :=
  shape.construct != .program &&
    (shape.construct != .binaryExpression || isOperation shape.order) &&
    (shape.construct != .parenthesizedExpression || isGrouping shape.order)

/-- Whether a rule by itself makes only constructs that may stand in others. -/
def nested : Grammar.Rule → Bool
  | .leaf construct _ | .literal construct | .name construct _ => construct != .program
  | rule => (rule.shapes known).all nestedShape

/-- What operands grow into is no file and has no parentheses around it, the tails of operators are
foreseen in order, and so are the rules of operands and operators. -/
theorem nested_expression (arrow : Bool) :
    (operand arrow).within.all nested = true ∧
      ((operatorGrowths arrow).map (·.2)).all (fun growth =>
        growth.construct != .program && growth.construct != .parenthesizedExpression &&
          (growth.construct != .binaryExpression || growth.role == some .left &&
            isOperation ((growth.tail.order known).map ([] :: ·))) &&
          growth.tail.within.all nested) = true := by
  cases arrow <;> decide +kernel

/-- All rules of the grammar make only constructs that may stand in others. -/
theorem nested_rules : ∀ which, ∀ inner ∈ (rules which).within, nested inner = true := by
  refine all_within_rules nested_expression (fun floor arrow growths => ?_) (by decide +kernel)
  obtain ⟨roleless, _, single, essential⟩ := known_expression arrow
  obtain ⟨order, own, length⟩ := Option.map_eq_some_iff.mp single
  rw [List.all_eq_true] at roleless essential
  change (List.map (Rule.grownShape known (operand arrow) _) _).all nestedShape = true
  rw [List.all_map, List.all_eq_true]
  intro growth applies
  have checked := growths growth applies
  simp only [Bool.and_eq_true, Bool.or_eq_true, beq_iff_eq] at checked
  rw [Function.comp_apply, nestedShape, Bool.and_eq_true, Bool.and_eq_true, Bool.or_eq_true,
    Bool.or_eq_true]
  refine ⟨⟨checked.1.1, checked.2.imp_right fun ⟨inRole, tail⟩ => ?_⟩, .inl checked.1.2⟩
  cases foreseen : growth.tail.order known with
  | none => simp [foreseen, isOperation] at tail
  | some rest =>
    rw [foreseen, Option.map_some] at tail
    obtain ⟨firsts, same, lefts⟩ := Rule.order_grownShape own length
      (fun sight listed => by simpa using roleless sight listed)
      (List.all_eq_true.mpr fun other among => essential other (mem_operatorGrowths among))
      inRole foreseen
    rw [same]
    exact isOperation_cons tail lefts

/-- What the rules of the grammar make is a token and no file, or a construct as expected. -/
theorem nested_of_made {node : Node} {construct : Construct}
    (made : Rule.Made rules known node) (kind : node.kind = .construct construct) :
    node.children = [] ∧ construct ≠ .program ∨
      ∃ shape, nestedShape shape = true ∧ shape.construct = construct ∧ shape.Fits node := by
  cases made with
  | comment isComment childless =>
    obtain ⟨comment, listed, same⟩ := Node.isAny_iff.mp isComment
    obtain rfl : construct = comment := by simpa using kind.symm.trans same
    refine .inl ⟨childless, ?_⟩
    rintro rfl
    simp at listed
  | @rule which rule _ inside makes =>
    have checked := nested_rules which rule inside
    cases makes with
    | mark other => cases kind.symm.trans other
    | leaf itself childless | literal itself childless | name itself childless =>
      obtain rfl : construct = _ := by simpa using kind.symm.trans itself
      exact .inl ⟨childless, by simpa [nested] using checked⟩
    | @branch _ _ shape shaped fits =>
      have all : (rule.shapes known).all nestedShape = true := by
        cases rule <;> first | exact checked | simp [Rule.shapes] at shaped
      exact .inr ⟨shape, List.all_eq_true.mp all shape shaped,
        by simpa using fits.kind.symm.trans kind, fits⟩

namespace WellFormed

variable {root : Node} {place around child left right : Place}

/-- What stands in another construct was made by a rule of the grammar. Induction on the steps
from the root. -/
theorem made_at (wf : WellFormed root) (held : root.Holds place)
    (above : place.parent? = some around) : Rule.Made rules known place.node := by
  suffices everywhere : place.node.Everywhere (Rule.Made rules known) from everywhere.here
  induction held generalizing around with
  | root => simp [Place.root, Place.parent?] at above
  | @child parent place held below ih =>
    have inside := Place.node_mem_of_mem_children below
    cases outer : parent.parent? with
    | none =>
      cases held with
      | root => exact wf.made place.node inside
      | child held' below' => simp [Place.parent?_of_mem_children below'] at outer
    | some further => exact (ih outer).child inside

/-- What stands in another construct is no file. -/
theorem is_program_eq_false (wf : WellFormed root) (held : root.Holds place)
    (above : place.parent? = some around) : place.is .program = false := by
  rw [Bool.eq_false_iff]
  intro isProgram
  rcases nested_of_made (wf.made_at held above) (Place.is_iff.mp isProgram) with
    ⟨_, other⟩ | ⟨shape, checked, same, _⟩
  · exact other rfl
  · simp [nestedShape, same] at checked

/-- What has children and is no file has one of the expected shapes. -/
theorem exists_nestedShape (wf : WellFormed root) (held : root.Holds place) {construct : Construct}
    (itself : place.is construct = true) (other : construct ≠ .program)
    (below : child ∈ place.children) :
    ∃ shape, nestedShape shape = true ∧ shape.construct = construct ∧ shape.Fits place.node := by
  have kind := Place.is_iff.mp itself
  obtain ⟨around, above⟩ : ∃ around, place.parent? = some around := by
    cases held with
    | root =>
      have same : Construct.program = construct := by
        simpa using (Place.is_iff.mp wf.root_is_program).symm.trans kind
      exact absurd same.symm other
    | child held below => exact ⟨_, Place.parent?_of_mem_children below⟩
  rcases nested_of_made (wf.made_at held above) kind with ⟨childless, _⟩ | shaped
  · have inside := Place.node_mem_of_mem_children below
    simp [childless] at inside
  · exact shaped

/-- A child in a role is no comment. -/
theorem mem_filter_of_child? {shape : Shape} {role : Role}
    (fits : shape.Fits place.node) (found : place.child? role = some child) :
    child ∈ place.children.filter (!·.node.isExtra) ∧ child.node.role = some role := by
  obtain ⟨below, roled⟩ := Place.mem_children_of_child? found
  refine ⟨List.mem_filter.mpr ⟨below, ?_⟩, roled⟩
  rcases fits.cover child.node (Place.node_mem_of_mem_children below) with ⟨_, free⟩ | ⟨meant, _⟩
  · rw [roled] at free
    contradiction
  · rw [meant, Bool.not_false]

/-- The operands of a binary operator stand on both sides of it, and besides them there is nothing
but comments. -/
theorem operands (wf : WellFormed root) (held : root.Holds place)
    (isBinary : place.is .binaryExpression = true) (first : place.child? .left = some left)
    (second : place.child? .right = some right) :
    ∃ operator text, operator.kind = .mark text ∧
      place.children.filter (!·.node.isExtra) = [left, operator, right] := by
  obtain ⟨shape, checked, same, fits⟩ := wf.exists_nestedShape held isBinary (by decide)
    (Place.mem_children_of_child? first).1
  have expected : isOperation shape.order = true := by simpa [nestedShape, same] using checked
  obtain ⟨_, _, _, text, essentials, isLeft, isOperator, isRight, mark⟩ :=
    inOrder_of_isOperation expected fits
  have nodes := (Place.map_node_filter place).trans essentials
  simp only [List.map_eq_cons_iff, List.map_eq_nil_iff] at nodes
  obtain ⟨one, _, split, rfl, two, _, rfl, rfl, three, _, rfl, rfl, rfl⟩ := nodes
  obtain ⟨isFirst, roleLeft⟩ := mem_filter_of_child? fits first
  obtain ⟨isSecond, roleRight⟩ := mem_filter_of_child? fits second
  rw [split] at isFirst isSecond
  simp only [List.mem_cons, List.not_mem_nil, or_false] at isFirst isSecond
  have sameLeft : left = one := by
    rcases isFirst with rfl | rfl | rfl
    · rfl
    · simp [isOperator] at roleLeft
    · simp [isRight] at roleLeft
  have sameRight : right = three := by
    rcases isSecond with rfl | rfl | rfl
    · simp [isLeft] at roleRight
    · simp [isOperator] at roleRight
    · rfl
  exact ⟨two, text, mark, by rw [split, sameLeft, sameRight]⟩

/-- Parentheses hold one expression, and besides it and them there is nothing but comments. -/
theorem eq_of_mem_parts_of_group (wf : WellFormed root) (held : root.Holds place)
    (isGroup : place.is .parenthesizedExpression = true) (listed : child ∈ place.parts) :
    ∀ other ∈ place.parts, other = child := by
  obtain ⟨shape, checked, same, fits⟩ := wf.exists_nestedShape held isGroup (by decide)
    (Place.mem_children_of_mem_parts listed)
  have expected : isGrouping shape.order = true := by simpa [nestedShape, same] using checked
  obtain ⟨_, _, _, first, last, essentials, opens, closes⟩ := inOrder_of_isGrouping expected fits
  have nodes := (Place.map_node_filter place).trans essentials
  simp only [List.map_eq_cons_iff, List.map_eq_nil_iff] at nodes
  obtain ⟨opening, _, split, rfl, inner, _, rfl, rfl, closing, _, rfl, rfl, rfl⟩ := nodes
  have only : ∀ part ∈ place.parts, part = inner := by
    intro part among
    obtain ⟨below, isPart⟩ := Place.mem_parts.mp among
    have meant := wf.isExtra_of_isPart (held.child below) isPart
    have inside : part ∈ place.children.filter (!·.node.isExtra) :=
      List.mem_filter.mpr ⟨below, by rw [meant, Bool.not_false]⟩
    simp only [split, List.mem_cons, List.not_mem_nil, or_false] at inside
    rcases inside with rfl | rfl | rfl
    · simp [Node.isPart, Node.isConstruct, opens] at isPart
    · rfl
    · simp [Node.isPart, Node.isConstruct, closes] at isPart
  intro other among
  rw [only other among, only child listed]

end WellFormed

end Grammar

end CaretName
