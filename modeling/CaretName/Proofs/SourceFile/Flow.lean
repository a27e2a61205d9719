import CaretName.Proofs.Grammar.Nesting
import CaretName.Proofs.SourceFile.Caret
import CaretName.Proofs.SourceFile.Scope

/-!
# Variables of patterns in conditions

A pattern in a condition gives a variable only where the condition is sure to have held, or sure to
have failed. `Place.Introduces` tells for which of the two a condition introduces a variable. The
lookup of variables finds all that are introduced, and more: it takes the patterns anywhere in the
condition of an earlier if statement, and in the left operand of any binary operator.
-/
namespace CaretName

open Grammar

namespace Place

variable {root : Node} {name : String} {place site inner list statement condition own : Place}
  {truth : Bool}

/-! ## What a condition introduces -/

/-- A condition introduces a variable of a name, `true` standing for where the condition holds and
`false` for where it fails. -/
inductive Introduces (name : String) (own : Place) : Bool → Place → Prop
  /-- The test of a type introduces its variable where it holds. -/
  | test {place : Place} (isTest : place.is .instanceofExpression = true)
    (named : place.nameIs? name = some own) : Introduces name own true place
  /-- A negation introduces where it holds what its operand introduces where that fails. -/
  | negation {place sign operand : Place} {truth : Bool}
    (isUnary : place.is .unaryExpression = true) (operator : place.child? .operator = some sign)
    (negates : sign.isMark "!" = true) (child : place.child? .operand = some operand)
    (inside : Introduces name own (!truth) operand) : Introduces name own truth place
  /-- Where a conjunction holds both operands do. -/
  | conjunction {place sign side : Place} {role : Role}
    (isBinary : place.is .binaryExpression = true) (operator : place.child? .operator = some sign)
    (joins : sign.isMark "&&" = true) (isSide : role = .left ∨ role = .right)
    (child : place.child? role = some side) (inside : Introduces name own true side) :
    Introduces name own true place
  /-- Where a disjunction fails both operands do. -/
  | disjunction {place sign side : Place} {role : Role}
    (isBinary : place.is .binaryExpression = true) (operator : place.child? .operator = some sign)
    (joins : sign.isMark "||" = true) (isSide : role = .left ∨ role = .right)
    (child : place.child? role = some side) (inside : Introduces name own false side) :
    Introduces name own false place
  /-- Parentheses mean nothing. -/
  | parentheses {place inner : Place} {truth : Bool}
    (isGroup : place.is .parenthesizedExpression = true) (part : inner ∈ place.parts)
    (inside : Introduces name own truth inner) : Introduces name own truth place

namespace Introduces

/-- What introduces a variable is made of a few kinds of expressions. -/
theorem isAny (introduces : Introduces name own truth place) :
    place.isAny [.instanceofExpression, .unaryExpression, .binaryExpression,
      .parenthesizedExpression] = true := by
  cases introduces with
  | test isTest => exact isAny_of_is isTest (by decide)
  | negation isUnary => exact isAny_of_is isUnary (by decide)
  | conjunction isBinary | disjunction isBinary => exact isAny_of_is isBinary (by decide)
  | parentheses isGroup => exact isAny_of_is isGroup (by decide)

/-- A test of a type introduces nothing where it fails. -/
theorem truth_of_test (introduces : Introduces name own truth place)
    (isTest : place.is .instanceofExpression = true) : truth = true := by
  have kind := is_iff.mp isTest
  cases introduces with
  | test => rfl
  | negation isUnary => cases kind.symm.trans (is_iff.mp isUnary)
  | conjunction isBinary => rfl
  | disjunction isBinary => cases kind.symm.trans (is_iff.mp isBinary)
  | parentheses isGroup => cases kind.symm.trans (is_iff.mp isGroup)

/-- What parentheses introduce is introduced inside them. -/
theorem exists_part (introduces : Introduces name own truth place)
    (isGroup : place.is .parenthesizedExpression = true) :
    ∃ inner ∈ place.parts, Introduces name own truth inner := by
  have kind := is_iff.mp isGroup
  cases introduces with
  | test isTest => cases kind.symm.trans (is_iff.mp isTest)
  | negation isUnary => cases kind.symm.trans (is_iff.mp isUnary)
  | conjunction isBinary | disjunction isBinary => cases kind.symm.trans (is_iff.mp isBinary)
  | parentheses isGroup part inside => exact ⟨_, part, inside⟩

/-- What introduces a variable is a part of the construct around it. -/
theorem mem_parts {around : Place} (introduces : Introduces name own truth place)
    (below : place ∈ around.children) : place ∈ around.parts :=
  Place.mem_parts.mpr ⟨below, isPart_of_isAny introduces.isAny (by decide)⟩

end Introduces

/-- The variable of the test of a type is found in it. -/
theorem patternNamed?_of_test (isTest : place.is .instanceofExpression = true)
    (named : place.nameIs? name = some own) : place.patternNamed? name = some own := by
  have enters : place.isAny [.lambdaExpression, .classBody, .block] = false :=
    isAny_eq_false (isAny_of_is isTest (List.mem_singleton_self _)) (by decide)
  rw [patternNamed?_eq, enters, if_neg Bool.false_ne_true, if_pos isTest, named, Option.some_or]

/-- A pattern inside a part is found in the construct around the part, unless the construct is one
that is not looked into. -/
theorem patternNamed?_isSome_of_part {part : Place}
    (enters : place.isAny [.lambdaExpression, .classBody, .block] = false)
    (below : part ∈ place.parts) (found : (part.patternNamed? name).isSome = true) :
    (place.patternNamed? name).isSome = true := by
  rw [patternNamed?_eq, enters, if_neg Bool.false_ne_true, Option.isSome_or, Bool.or_eq_true]
  exact .inr (List.findSome?_isSome_iff.mpr ⟨part, below, found⟩)

/-- A variable that a condition introduces is found in it, whether it holds or fails. Induction on
the condition. -/
theorem Introduces.found (introduces : Introduces name own truth place) :
    (place.patternNamed? name).isSome = true := by
  have enters : place.isAny [.lambdaExpression, .classBody, .block] = false :=
    isAny_eq_false introduces.isAny (by decide)
  induction introduces with
  | test isTest named => rw [patternNamed?_of_test isTest named, Option.isSome_some]
  | negation isUnary operator negates child inside ih =>
    have part := inside.mem_parts (mem_children_of_child? child).1
    exact patternNamed?_isSome_of_part enters part (ih (isAny_eq_false inside.isAny (by decide)))
  | conjunction isBinary operator joins isSide child inside ih
  | disjunction isBinary operator joins isSide child inside ih =>
    have part := inside.mem_parts (mem_children_of_child? child).1
    exact patternNamed?_isSome_of_part enters part (ih (isAny_eq_false inside.isAny (by decide)))
  | parentheses isGroup part inside ih =>
    exact patternNamed?_isSome_of_part enters part (ih (isAny_eq_false inside.isAny (by decide)))

/-! ## After a statement -/

/-- The variable of a pattern in the condition of an if statement. -/
def conditionNamed? (name : String) (statement : Place) : Option Place :=
  if statement.is .ifStatement then (statement.child? .condition).bind (patternNamed? name)
  else none

/-- In a statement list the local variables that are declared before a statement come first, and
the patterns in the conditions of the if statements before it follow. -/
theorem variableAround?_of_list (isList : list.isAny statementLists = true)
    (below : inner ∈ list.children) : inner.variableAround? name =
      (((list.partsBefore inner).filter (·.is .localVariableDeclaration)).findSome?
          (declaratorNamed? name)).or
        ((list.partsBefore inner).findSome? (conditionNamed? name)) := by
  have noLoop : list.is .forStatement = false := is_eq_false isList (by decide)
  have noScope : list.isAny patternScopes = false := isAny_eq_false isList (by decide)
  rw [variableAround?, parent?_of_mem_children below, Option.bind_some, declaredFor?, if_pos isList,
    noScope, if_neg Bool.false_ne_true, localBefore?, introducedBefore?]
  simp only [noLoop, isList, Bool.false_and, Bool.false_eq_true, ↓reduceIte,
    Option.orElse_eq_orElse, Option.orElse_eq_or, Option.or_none]
  rfl

/-- What a use in a statement of a list means, unless something inside the statement shows a
variable: a variable that the list shows, or what the name means around the list. -/
theorem variableNamed?_in_list (isList : list.isAny statementLists = true)
    (below : inner ∈ list.children) (inChain : inner ∈ site.outward)
    (unshadowed : Unshadowed name site inner) : site.variableNamed? name =
      ((((list.partsBefore inner).filter (·.is .localVariableDeclaration)).findSome?
          (declaratorNamed? name)).or
        ((list.partsBefore inner).findSome? (conditionNamed? name))).or
          (list.variableNamed? name) := by
  rw [variableNamed?_of_unshadowed inChain unshadowed, variableNamed?_eq,
    variableAround?_of_list isList below, parent?_of_mem_children below, Option.bind_some]

/-- No local variable of the name is declared before a use. -/
theorem noLocal_iff : ((list.partsBefore inner).filter (·.is .localVariableDeclaration)).findSome?
      (declaratorNamed? name) = none ↔
    ∀ part ∈ list.partsBefore inner, part.is .localVariableDeclaration = true →
      part.declaratorNamed? name = none := by
  simp only [List.findSome?_eq_none_iff, List.mem_filter, and_imp]

/-- The variable of a pattern in the condition of a statement lies inside the statement, and is no
local variable. -/
theorem parent?_of_conditionNamed? (named : statement.conditionNamed? name = some own) :
    ∃ parent, own.parent? = some parent ∧
      parent.isAny [.instanceofExpression, .typePattern] = true ∧ statement ∈ own.outward := by
  unfold conditionNamed? at named
  split at named
  · obtain ⟨condition, child, named⟩ := Option.bind_eq_some_iff.mp named
    obtain ⟨parent, above, kinds, inside⟩ := parent?_of_patternNamed? named
    have outer := mem_outward_of_mem_children (mem_children_of_child? child).1
    exact ⟨parent, above, kinds, mem_outward_trans (mem_outward_trans outer inside)
      (mem_outward.mpr (.inr (mem_ancestors_of_parent? above)))⟩
  · contradiction

/-- What two statements of one list have in their conditions are different variables. -/
theorem eq_of_conditionNamed? {other : Place} (one : statement ∈ list.parts)
    (two : other ∈ list.parts) (named : statement.conditionNamed? name = some own)
    (named' : other.conditionNamed? name = some own) : statement = other := by
  obtain ⟨_, _, _, inOne⟩ := parent?_of_conditionNamed? named
  obtain ⟨_, _, _, inTwo⟩ := parent?_of_conditionNamed? named'
  refine eq_of_mem_outward inOne inTwo ?_
  rw [depth_of_mem_children (mem_children_of_mem_parts one),
    depth_of_mem_children (mem_children_of_mem_parts two)]

/-- The variable of a pattern in a condition is none of the variables of a declaration. -/
theorem declaratorNamed?_ne_conditionNamed? {part : Place} (wf : WellFormed root)
    (held : root.Holds part) (named : statement.conditionNamed? name = some own) :
    part.declaratorNamed? name ≠ some own := by
  intro declared
  obtain ⟨declarator, above, isDeclarator, _⟩ := parent?_of_declaratorNamed? wf held declared
  obtain ⟨parent, above', kinds, _⟩ := parent?_of_conditionNamed? named
  obtain rfl : declarator = parent := Option.some.inj (above.symm.trans above')
  have other : declarator.is .variableDeclarator = false := is_eq_false kinds (by decide)
  rw [isDeclarator] at other
  contradiction

/-- After a statement with a pattern in its condition a use resolves to the pattern exactly if no
local variable of the name is declared before the use, and no earlier statement has a pattern of
the name in its condition. -/
theorem variableNamed?_after_statement (wf : WellFormed root) (held : root.Holds list)
    (isList : list.isAny statementLists = true) (below : inner ∈ list.children)
    (inChain : inner ∈ site.outward) (unshadowed : Unshadowed name site inner)
    {earlier later : List Place} (parted : list.partsBefore inner = earlier ++ statement :: later)
    (named : statement.conditionNamed? name = some own) :
    site.variableNamed? name = some own ↔
      (∀ part ∈ list.partsBefore inner, part.is .localVariableDeclaration = true →
        part.declaratorNamed? name = none) ∧
      ∀ part ∈ earlier, part.conditionNamed? name = none := by
  have parts : ∀ part ∈ list.partsBefore inner, part ∈ list.parts :=
    fun part before => List.takeWhile_subset _ before
  rw [variableNamed?_in_list isList below inChain unshadowed, ← noLocal_iff]
  have patterns : (list.partsBefore inner).findSome? (conditionNamed? name) =
      (earlier.findSome? (conditionNamed? name)).or (some own) := by
    rw [parted, List.findSome?_append, List.findSome?_cons, named]
  constructor
  · intro resolves
    have noLocal : ((list.partsBefore inner).filter (·.is .localVariableDeclaration)).findSome?
        (declaratorNamed? name) = none := by
      rw [Option.eq_none_iff_forall_ne_some]
      intro found declared
      rw [declared, Option.some_or, Option.some_or, Option.some.injEq] at resolves
      subst resolves
      obtain ⟨part, listed, declared⟩ := List.exists_of_findSome?_eq_some declared
      have heldPart := held.of_part (parts part (List.mem_filter.mp listed).1)
      exact declaratorNamed?_ne_conditionNamed? wf heldPart named declared
    have noEarlier : earlier.findSome? (conditionNamed? name) = none := by
      rw [Option.eq_none_iff_forall_ne_some]
      intro found introduced
      rw [noLocal, patterns, introduced, Option.none_or, Option.some_or, Option.some_or,
        Option.some.injEq] at resolves
      subst resolves
      obtain ⟨part, listed, introduced⟩ := List.exists_of_findSome?_eq_some introduced
      have before : ∀ other ∈ earlier ++ statement :: later, other ∈ list.parts :=
        fun other listed => parts other (parted ▸ listed)
      obtain rfl := eq_of_conditionNamed? (before part (List.mem_append_left _ listed))
        (before statement (List.mem_append_right _ List.mem_cons_self)) introduced named
      -- No child is listed twice, so the statement is not among those before it.
      have once : (earlier ++ part :: later).Nodup :=
        parted ▸ ((nodup_children list).filter _).sublist (List.takeWhile_sublist _)
      exact (List.nodup_append.mp once).2.2 part listed part List.mem_cons_self rfl
    exact ⟨noLocal, List.findSome?_eq_none_iff.mp noEarlier⟩
  · rintro ⟨noLocal, unconditioned⟩
    have noEarlier : earlier.findSome? (conditionNamed? name) = none :=
      List.findSome?_eq_none_iff.mpr unconditioned
    rw [noLocal, patterns, noEarlier, Option.none_or, Option.none_or, Option.some_or]

/-! ## Beside an operator -/

/-- What has no children has no pattern. -/
theorem patternNamed?_eq_none (wf : WellFormed root) (held : root.Holds place)
    (noPart : place.node.isPart = false) : place.patternNamed? name = none := by
  rw [Option.eq_none_iff_forall_ne_some]
  intro found named
  obtain ⟨child, below⟩ : ∃ child, child ∈ place.children := by
    rcases patternNamed?_cases named with ⟨_, named⟩ | ⟨_, named⟩ | ⟨part, listed, _⟩
    · obtain ⟨child, chosen, _⟩ := Option.bind_eq_some_iff.mp named
      exact ⟨child, (mem_children_of_child? chosen).1⟩
    · obtain ⟨child, chosen, _⟩ := Option.bind_eq_some_iff.mp named
      exact ⟨child, mem_children_of_patternName? chosen⟩
    · exact ⟨part, mem_children_of_mem_parts listed⟩
  rw [wf.isPart_of_mem_children held below] at noPart
  contradiction

/-- The left operand of a binary operator starts before the right one, and the operator between
them is no part. -/
theorem partsBefore_right (wf : WellFormed root) (held : root.Holds place)
    (isBinary : place.is .binaryExpression = true) {left right : Place}
    (first : place.child? .left = some left) (second : place.child? .right = some right) :
    place.partsBefore right = [left].filter (·.node.isPart) := by
  obtain ⟨operator, text, isMark, split⟩ := wf.operands held isBinary first second
  have below : operator ∈ place.children := by
    have listed : operator ∈ place.children.filter (!·.node.isExtra) := by simp [split]
    exact (List.mem_filter.mp listed).1
  have noPart : operator.node.isPart = false := by
    rw [Node.isPart, Node.isConstruct, show operator.node.kind = .mark text from isMark,
      Bool.false_and]
  have before : left.start < right.start := by
    have lie := (held.laid wf.laid).sublist (List.filter_sublist (p := (!·.isExtra)))
    rw [← Node.essentials, ← place.map_node_filter, split] at lie
    obtain ⟨_, visible⟩ := wf.mark_token (held.child below) isMark
    change operator.node.start < operator.node.stop at visible
    cases lie with
    | cons _ inside later =>
      have width := inside.le
      have after := (later.mem (List.mem_cons_self)).1
      cases later with
      | cons _ _ later =>
        have after' := (later.mem (List.mem_cons_self)).1
        change left.node.start < right.node.start
        omega
  have meant : place.parts = [left, operator, right].filter (·.node.isPart) := by
    rw [← split, List.filter_filter, parts]
    refine List.filter_congr fun child below => ?_
    cases isPart : child.node.isPart with
    | false => rfl
    | true => simp [wf.isExtra_of_isPart (held.child below) isPart]
  rw [partsBefore, meant]
  cases isPart : left.node.isPart <;> cases isPart' : right.node.isPart <;>
    simp [isPart, isPart', noPart, before]

/-- Constructs whose earlier children introduce patterns declare no variables themselves. -/
theorem declaredFor?_eq_none (isScope : place.isAny patternScopes = true) :
    declaredFor? name place inner = none := by
  have noList : place.isAny statementLists = false := isAny_eq_false isScope (by decide)
  have noCallable : place.isAny [.methodDeclaration, .constructorDeclaration] = false :=
    isAny_eq_false isScope (by decide)
  have noLambda : place.is .lambdaExpression = false := is_eq_false isScope (by decide)
  have noHandler : place.is .catchClause = false := is_eq_false isScope (by decide)
  have noLoop : place.is .enhancedForStatement = false := is_eq_false isScope (by decide)
  have noTry : place.is .tryWithResourcesStatement = false := is_eq_false isScope (by decide)
  have noType : place.isTypeScope = false := by
    have noDeclaration : place.isTypeDeclaration = false := isAny_eq_false isScope (by decide)
    have noBody : place.is .classBody = false := is_eq_false isScope (by decide)
    rw [isTypeScope, noDeclaration, isAnonymousBody, noBody, Bool.false_and, Bool.false_or]
  simp only [declaredFor?, noList, noCallable, noLambda, noHandler, noLoop, noTry, noType,
    Bool.false_eq_true, ↓reduceIte]

/-- In the right operand of a binary operator, whatever it is, a name means a pattern of the left
operand before it means anything outside the operands. -/
theorem variableNamed?_right (wf : WellFormed root) (held : root.Holds place)
    (isBinary : place.is .binaryExpression = true) {left right : Place}
    (first : place.child? .left = some left) (second : place.child? .right = some right)
    (inChain : right ∈ site.outward) (unshadowed : Unshadowed name site right) :
    site.variableNamed? name = (left.patternNamed? name).or (place.variableNamed? name) := by
  have kinds := isAny_of_is isBinary (List.mem_singleton_self _)
  have isScope : place.isAny patternScopes = true := isAny_of_is isBinary (by decide)
  have noList : place.isAny statementLists = false := isAny_eq_false kinds (by decide)
  have noLoop : place.is .forStatement = false := is_eq_false kinds (by decide)
  have above := parent?_of_mem_children (mem_children_of_child? second).1
  have here : right.variableAround? name = left.patternNamed? name := by
    rw [variableAround?, above, Option.bind_some, declaredFor?_eq_none isScope, if_pos isScope,
      introducedBefore?, partsBefore_right wf held isBinary first second]
    simp only [noLoop, noList, Bool.false_and, Bool.false_eq_true, ↓reduceIte,
      Option.orElse_eq_orElse, Option.orElse_eq_or, Option.none_or]
    cases isPart : left.node.isPart with
    | false =>
      rw [List.filter_cons_of_neg (by simp [isPart]), List.filter_nil, List.findSome?_nil,
        patternNamed?_eq_none wf (held.of_child? first) isPart]
    | true =>
      rw [List.filter_cons_of_pos (by simpa using isPart), List.filter_nil,
        List.findSome?_singleton]
  rw [variableNamed?_of_unshadowed inChain unshadowed, variableNamed?_eq, here, above,
    Option.bind_some]

/-! ## Patterns and the flow of control -/

/-- A condition has a pattern for each variable that it introduces. After a statement a use means
the first pattern in the condition of an earlier if statement, whatever the condition introduces
and wherever the statement goes on, unless a local variable is declared before the use; without
such a pattern or variable it means what it means around the list. In the right operand of a
binary operator, whatever it is, a use means a pattern of the left one first. -/
theorem patterns_of_conditions (wf : WellFormed root) (name : String) :
    (∀ truth own condition, Introduces name own truth condition →
      (condition.patternNamed? name).isSome = true) ∧
    (∀ list inner site : Place, root.Holds list → list.isAny statementLists = true →
      inner ∈ list.children → inner ∈ site.outward → Unshadowed name site inner →
      (∀ earlier statement later own, list.partsBefore inner = earlier ++ statement :: later →
        statement.conditionNamed? name = some own →
        (site.variableNamed? name = some own ↔
          (∀ part ∈ list.partsBefore inner, part.is .localVariableDeclaration = true →
            part.declaratorNamed? name = none) ∧
          ∀ part ∈ earlier, part.conditionNamed? name = none)) ∧
      ((∀ part ∈ list.partsBefore inner, (part.is .localVariableDeclaration = true →
          part.declaratorNamed? name = none) ∧ part.conditionNamed? name = none) →
        site.variableNamed? name = list.variableNamed? name)) ∧
    ∀ operation left right site : Place, root.Holds operation →
      operation.is .binaryExpression = true → operation.child? .left = some left →
      operation.child? .right = some right → right ∈ site.outward →
      Unshadowed name site right →
      site.variableNamed? name =
        (left.patternNamed? name).or (operation.variableNamed? name) := by
  refine ⟨fun _ _ _ introduces => introduces.found, ?lists, ?operators⟩
  case lists =>
    intro list inner site held isList below inChain unshadowed
    constructor
    · intro earlier statement later own parted named
      exact variableNamed?_after_statement wf held isList below inChain unshadowed parted named
    · intro silent
      have noLocal := noLocal_iff.mpr fun part before => (silent part before).1
      have noPattern : (list.partsBefore inner).findSome? (conditionNamed? name) = none :=
        List.findSome?_eq_none_iff.mpr fun part before => (silent part before).2
      rw [variableNamed?_in_list isList below inChain unshadowed, noLocal, noPattern,
        Option.none_or, Option.none_or]
  case operators =>
    intro operation left right site held isBinary first second inChain unshadowed
    exact variableNamed?_right wf held isBinary first second inChain unshadowed

/-- A test that leaves the method where it fails, and one beside an operator. -/
def guardedByTests : String :=
  "class A \x7b boolean f(Object o) \x7b if (!(o instanceof String s)) " ++
    "return o instanceof Boolean b && b; return s.isEmpty(); \x7d \x7d"

/-- A use after the one and the name beside the other mean the patterns of the tests. -/
theorem patterns_of_guards : accepts guardedByTests = true ∧
    (∃ tested condition own site : Place, Introduces "s" tested false condition ∧
      condition.patternNamed? "s" = some own ∧ (parse guardedByTests).Holds site ∧
      site.variableNamed? "s" = some own) ∧
    ∃ own left right : Place, Introduces "b" own true left ∧ (parse guardedByTests).Holds right ∧
      right.is .identifier = true ∧ right.variableNamed? "b" = some own := by
  have used : ((accepts guardedByTests && ((parse guardedByTests).places []).any fun site =>
        site.outward.any fun inner => inner.parent?.any fun list =>
          list.isAny statementLists &&
          (list.partsBefore inner).all (fun part => !part.is .localVariableDeclaration) &&
          site.outward.all (fun between => !between.ancestors.any inner.same ||
            (between.variableAround? "s").isNone) &&
          (list.partsBefore inner).head?.any fun statement =>
            statement.is .ifStatement && (statement.child? .condition).any fun condition =>
              condition.is .parenthesizedExpression && condition.parts.any fun negation =>
                negation.is .unaryExpression && (negation.child? .operator).any (·.isMark "!") &&
                (negation.child? .operand).any fun group =>
                  group.is .parenthesizedExpression && group.parts.any fun test =>
                    test.is .instanceofExpression && (test.nameIs? "s").isSome) &&
      (accepts guardedByTests && ((parse guardedByTests).places []).any fun operation =>
        operation.is .binaryExpression && ((operation.child? .left).any fun left =>
          left.is .instanceofExpression && (left.nameIs? "b").isSome) &&
        (operation.child? .right).any (·.is .identifier))) = true := by
    decide +kernel
  obtain ⟨after, beside⟩ := Bool.and_eq_true_iff.mp used
  obtain ⟨accepted, site, held, after⟩ := exists_held_of_search after
  obtain ⟨_, operation, heldOperation, beside⟩ := exists_held_of_search beside
  simp only [Bool.and_eq_true, List.any_eq_true, Option.any_eq_true, Option.isSome_iff_exists]
    at after beside
  obtain ⟨inner, inChain, list, above, ⟨⟨isList, noLocal⟩, unshadowed⟩, statement, first, isIf,
    condition, isCondition, isGroup, negation, part, ⟨isUnary, sign, operator, negates⟩, group,
    operand, isGroup', test, part', isTest, tested, named⟩ := after
  obtain ⟨⟨isBinary, left, isLeft, isTest', declared, named'⟩, right, isRight, isName⟩ := beside
  have wf := wellFormed_parse accepted
  constructor
  · exact accepted
  constructor
  · obtain ⟨finds, lists, _⟩ := patterns_of_conditions wf "s"
    have introduces : Introduces "s" tested false condition :=
      .parentheses isGroup part (.negation isUnary operator negates operand
        (.parentheses isGroup' part' (.test isTest named)))
    obtain ⟨own, pattern⟩ := Option.isSome_iff_exists.mp (finds _ _ _ introduces)
    have isPattern : statement.conditionNamed? "s" = some own := by
      rw [conditionNamed?, if_pos isIf, isCondition, Option.bind_some, pattern]
    have noLocals : ∀ part ∈ list.partsBefore inner, part.is .localVariableDeclaration = true →
        part.declaratorNamed? "s" = none := by
      intro part before isLocal
      have other := List.all_eq_true.mp noLocal part before
      simp [isLocal] at other
    obtain ⟨heldList, below⟩ := (held.of_outward inChain).parent above
    obtain ⟨later, parted⟩ := List.head?_eq_some_iff.mp first
    obtain ⟨resolves, _⟩ := lists list inner site heldList isList below inChain
      (unshadowed_of_all unshadowed)
    exact ⟨tested, condition, own, site, introduces, pattern, held,
      (resolves [] statement later own parted isPattern).mpr ⟨noLocals, by simp⟩⟩
  · obtain ⟨_, _, operators⟩ := patterns_of_conditions wf "b"
    have resolves := operators operation left right right heldOperation isBinary isLeft isRight
      List.mem_cons_self unshadowed_self
    rw [patternNamed?_of_test isTest' named', Option.some_or] at resolves
    exact ⟨declared, left, right, .test isTest' named', heldOperation.of_child? isRight, isName,
      resolves⟩

/-- A test whose statement goes on in any case, and a field called like the variable of the
test. -/
def unguardedByTest : String :=
  "class A \x7b String v; void f(Object o) \x7b if (o instanceof Integer v) \x7b \x7d " ++
    "v.length(); \x7d \x7d"

/-- After the statement a use means the pattern, which is not introduced there, and not the
field. -/
theorem pattern_outlives_test : accepts unguardedByTest = true ∧
    ∃ list inner statement condition site field : Place,
      (parse unguardedByTest).Holds site ∧ inner ∈ site.outward ∧ inner.parent? = some list ∧
      list.isAny statementLists = true ∧ statement ∈ list.partsBefore inner ∧
      statement.is .ifStatement = true ∧ statement.child? .condition = some condition ∧
      (∀ own, ¬ Introduces "v" own false condition) ∧
      list.variableNamed? "v" = some field ∧ field.variableElement = .variable "String" "v" ∧
      (SourceFile.ofRoot (parse unguardedByTest)).Shows site (.variable "Integer" "v") := by
  have used : (accepts unguardedByTest && ((parse unguardedByTest).places []).any fun site =>
      site.is .identifier && (SourceFile.ofRoot (parse unguardedByTest)).nameElement site ==
        .variable "Integer" "v" && site.outward.any fun inner => inner.parent?.any fun list =>
          list.isAny statementLists && ((list.variableNamed? "v").any fun field =>
            field.variableElement == .variable "String" "v") &&
          (list.partsBefore inner).any fun statement => statement.is .ifStatement &&
            (statement.child? .condition).any fun condition =>
              condition.is .parenthesizedExpression &&
                condition.parts.all (·.is .instanceofExpression)) = true := by
    decide +kernel
  obtain ⟨accepted, site, held, used⟩ := exists_held_of_search used
  simp only [Bool.and_eq_true, List.any_eq_true, Option.any_eq_true, beq_iff_eq,
    List.all_eq_true] at used
  obtain ⟨⟨isName, means⟩, inner, inChain, list, above, ⟨isList, field, named, element⟩, statement,
    before, isIf, condition, isCondition, isGroup, tests⟩ := used
  have useless : ∀ own, ¬ Introduces "v" own false condition := by
    intro own introduces
    obtain ⟨test, part, inside⟩ := introduces.exists_part isGroup
    exact Bool.false_ne_true (inside.truth_of_test (tests test part))
  have shown := (SourceFile.shows_name_iff (wellFormed_parse accepted) held
    (SourceFile.isName_of_identifier isName)).mpr means
  exact ⟨accepted, list, inner, statement, condition, site, field, held, inChain, above, isList,
    before, isIf, isCondition, useless, named, element, shown⟩

end Place

end CaretName
