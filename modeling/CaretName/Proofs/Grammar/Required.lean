import CaretName.Proofs.Grammar.Code
import CaretName.Proofs.Grammar.Origin

/-!
# What constructs are sure to hold

Lookups that ask a construct for a child may find none. Which children are sure to be there is
foreseen by the rule that reads the construct: `Rule.assures` tells whether a rule is sure to
read a node that passes a test. This module checks the grammar for the children that overloads
and constructors are chosen by and that parameters are shown by, for what stands in their roles,
and for the form of a list of arguments.
-/
namespace CaretName

/-! ## Nodes that are sure to be read -/

namespace Rule

variable {π : Type}

mutual

/-- Whether a rule is sure to read a node, comments aside, that passes a test of how it looks. -/
def assures (known : π → List Look) (test : Sight → Bool) : Rule π → Bool
  | .seq rules => anyAssures known test rules
  | .choice rules => allAssure known test rules
  | .field role rule => rule.assures known fun sight => test (sight.inRole role)
  | .only _ rule => rule.assures known test
  | rule => rule.filled && (rule.sights known).all test

/-- Whether one of several rules is sure to read such a node. -/
def anyAssures (known : π → List Look) (test : Sight → Bool) : List (Rule π) → Bool
  | [] => false
  | rule :: rules => rule.assures known test || anyAssures known test rules

/-- Whether each of several rules is sure to read such a node. -/
def allAssure (known : π → List Look) (test : Sight → Bool) : List (Rule π) → Bool
  | [] => true
  | rule :: rules => rule.assures known test && allAssure known test rules

end

variable {grammar : π → Rule π} {known : π → List Look} {test : Sight → Bool}

/-- What all of several rules are sure to read is read by each. -/
theorem assures_of_allAssure {rules : List (Rule π)} {rule : Rule π} (chosen : rule ∈ rules)
    (all : allAssure known test rules = true) : rule.assures known test = true := by
  induction rules with
  | nil => simp at chosen
  | cons first rules ih =>
    simp only [allAssure, Bool.and_eq_true] at all
    rcases List.mem_cons.mp chosen with rfl | later
    · exact all.1
    · exact ih later all.2

namespace Reads

variable {rule : Rule π} {tokens rest : List Token} {nodes : List Node}

/-- A rule that is sure to read something reads a node as foreseen. -/
theorem exists_of_filled (knows : Knows grammar known) (reads : Reads grammar rule tokens nodes rest)
    (sound : ∀ token ∈ tokens, token.Sound)
    (sure : (rule.filled && (rule.sights known).all test) = true) :
    ∃ node ∈ nodes, node.isExtra = false ∧ ∃ sight, test sight = true ∧ sight.Fits node := by
  obtain ⟨filled, all⟩ := Bool.and_eq_true_iff.mp sure
  obtain ⟨node, essential⟩ := List.exists_mem_of_ne_nil _ (reads.filled knows filled)
  obtain ⟨inside, meant⟩ := Node.mem_essentials.mp essential
  rcases reads.cover knows sound node inside with ⟨extra, _⟩ | ⟨_, sight, listed, fits⟩
  · rw [meant] at extra
    contradiction
  · exact ⟨node, inside, meant, sight, List.all_eq_true.mp all sight listed, fits⟩

/-- A rule that is sure to read a node that passes a test reads one. -/
theorem exists_of_assures (knows : Knows grammar known)
    (reads : Reads grammar rule tokens nodes rest) (sound : ∀ token ∈ tokens, token.Sound)
    (sure : rule.assures known test = true) :
    ∃ node ∈ nodes, node.isExtra = false ∧ ∃ sight, test sight = true ∧ sight.Fits node := by
  induction reads generalizing test with
  | text spells => exact exists_of_filled knows (.text spells) sound sure
  | leaf spells => exact exists_of_filled knows (.leaf spells) sound sure
  | name named => exact exists_of_filled knows (.name named) sound sure
  | closing split => exact exists_of_filled knows (.closing split) sound sure
  | literal sort => exact exists_of_filled knows (.literal sort) sound sure
  | part body => exact exists_of_filled knows (.part body) sound sure
  | node body => exact exists_of_filled knows (.node body) sound sure
  | seed body => exact exists_of_filled knows (.seed body) sound sure
  | growth base applies leading onto later =>
    exact exists_of_filled knows (.growth base applies leading onto later) sound sure
  | finish | seqNil | manyNil | manyCons | ahead => contradiction
  | seqCons first later ihFirst ihLater =>
    rcases Bool.or_eq_true_iff.mp sure with front | back
    · obtain ⟨node, inside, found⟩ := ihFirst sound front
      exact ⟨node, List.mem_append_left _ inside, found⟩
    · obtain ⟨node, inside, found⟩ := ihLater (first.sound_rest sound) back
      exact ⟨node, List.mem_append_right _ inside, found⟩
  | choice chosen body ih => exact ih sound (assures_of_allAssure chosen sure)
  | @field role rule tokens rest nodes body ih =>
    obtain ⟨node, inside, meant, sight, passes, fits⟩ := ih sound sure
    refine ⟨_, List.mem_map_of_mem inside, ?_, _, passes, fits.inRole meant role⟩
    split
    · exact meant
    · rw [Node.isExtra_withRole]
      exact meant
  | only body leading ih => exact ih sound sure

end Reads

end Rule

/-! ## What the grammar asks for -/

namespace Grammar

/-- What is known of expressions and statements, of types, and of what parameters and lists of
arguments consist of. -/
def callKnown : Part → List Look
  | .arguments => [.construct .argumentList]
  | .plainType => known .plainType
  | .annotationUse => known .annotationUse
  | .modifiers => [.construct .modifiers]
  | .dimensions => [.construct .dimensions]
  | which => codeKnown which

/-- What is known of all this is true. -/
theorem knows_callKnown : Rule.Knows rules callKnown :=
  knows_of_looksAsKnown (fun _ _ => rfl) (by decide +kernel) (by decide +kernel)

/-- Roles in which a construct is sure to have a child. -/
def requiredRoles : Construct → List Role
  | .formalParameter => [.type, .name]
  | .variableDeclarator => [.name]
  | .methodDeclaration | .constructorDeclaration => [.parameters]
  | .recordDeclaration => [.parameters, .body]
  | .classDeclaration | .interfaceDeclaration | .enumDeclaration | .annotationTypeDeclaration =>
    [.body]
  | .methodInvocation | .objectCreationExpression | .explicitConstructorInvocation =>
    [.arguments]
  | _ => []

/-- What a construct is sure to have a child of: one in each role that it requires, and in a
parameter of any number of values, where there are no roles, a type and a declarator. -/
def demands (construct : Construct) : List (Sight → Bool) :=
  (requiredRoles construct).map (fun role sight => sight.role == some role) ++
    if construct == .spreadParameter then
      [fun sight => ((known .plainType).contains sight.look),
        fun sight => sight.look == .construct .variableDeclarator]
    else []

/-- Constructs that never have parameters: the declarations of types other than records. -/
def parameterless : List Construct :=
  [.classDeclaration, .interfaceDeclaration, .enumDeclaration, .annotationTypeDeclaration]

/-- Constructs that give arguments to a method or a constructor. -/
def callConstructs : List Construct :=
  [.methodInvocation, .objectCreationExpression, .explicitConstructorInvocation]

/-- Constructs that the name of a parameter stands in, with the brackets after it. -/
def nameHolders : List Construct := [.formalParameter, .variableDeclarator]

/-- The constructs that the child of a construct in a role is one of, for some roles: only some
declarations have parameters, what a call calls its arguments is a list of them, and a parameter
is a type, a name and brackets. -/
def roleContents (around : Construct) (role : Role) : Option (List Construct) :=
  match role with
  | .parameters => if parameterless.contains around then some [] else none
  | .arguments => if callConstructs.contains around then some [.argumentList] else none
  | .type => if around == .formalParameter then some (.arrayType :: simpleTypes) else none
  | .name =>
    if nameHolders.contains around then some [.identifier, .underscorePattern] else none
  | .dimensions => if nameHolders.contains around then some [.dimensions] else none
  | _ => none

/-- What a parameter of any number of values consists of, besides marks. -/
def spreadContents : List Construct :=
  .modifiers :: .variableDeclarator :: annotationConstructs ++ .arrayType :: simpleTypes

/-- Whether a child of a construct looks as is asked of its role, and in a parameter of any number
of values as is asked of all its children. -/
def allows (around : Construct) (sight : Sight) : Bool :=
  (sight.role.all fun role => (roleContents around role).all fun constructs =>
    (constructs.map Look.construct).contains sight.look) &&
  (around != .spreadParameter || sight.look == .mark ||
    (spreadContents.map Look.construct).contains sight.look)

/-- Whether a rule reads any number of expressions in parentheses, with commas between. -/
def readsArguments : Grammar.Rule → Bool
  | .seq [.text "(",
      .choice [
        .seq [.part (.expression 0 true), .many (.seq [.text ",", .part (.expression 0 true)])],
        .seq []],
      .text ")"] => true
  | _ => false

/-- Whether what a node of some looks grows into holds what it must. -/
def providesGrown (sights : List Sight) (growth : Growth Grammar.Rule) : Bool :=
  (demands growth.construct).all (growth.tail.assures callKnown) &&
    (sights.map (Sight.inRole growth.role) ++ growth.tail.sights callKnown).all
      (allows growth.construct) &&
    growth.construct != .argumentList

/-- Whether a rule by itself makes only constructs that hold what they must. -/
def provides : Grammar.Rule → Bool
  | .leaf construct _ | .name construct _ | .literal construct =>
    (demands construct).isEmpty && construct != .argumentList
  | .node construct rule =>
    (demands construct).all (rule.assures callKnown) &&
      (rule.sights callKnown).all (allows construct) &&
      (construct != .argumentList || readsArguments rule)
  | .grow seed growths =>
    growths.all (providesGrown ((Rule.grow seed growths).sights callKnown))
  | _ => true

/-- Operands and operators make only constructs that hold what they must. -/
theorem provides_expression (arrow : Bool) : (operand arrow).within.all provides = true ∧
    ((operatorGrowths arrow).map (·.2)).all (fun growth =>
      providesGrown ((Rule.grow (operand arrow) ((operatorGrowths arrow).map (·.2))).sights
        callKnown) growth && growth.tail.within.all provides) = true := by
  cases arrow <;> decide +kernel

/-- A node of fewer looks grows into what holds what it must, too. -/
theorem providesGrown_of_subset {sights more : List Sight} {growth : Growth Grammar.Rule}
    (fewer : sights ⊆ more) (checked : providesGrown more growth = true) :
    providesGrown sights growth = true := by
  simp only [providesGrown, Bool.and_eq_true, List.all_eq_true] at checked ⊢
  obtain ⟨⟨demanded, allowed⟩, other⟩ := checked
  refine ⟨⟨demanded, fun sight listed => allowed sight ?_⟩, other⟩
  exact List.append_subset.mpr ⟨List.subset_append_of_subset_left _ (List.map_subset _ fewer),
    List.subset_append_right _ _⟩ listed

/-- All rules of the grammar make only constructs that hold what they must. -/
theorem provides_rules : ∀ which, ∀ inner ∈ (rules which).within, provides inner = true := by
  refine all_within_rules provides_expression (fun floor arrow growths => ?_) (by decide +kernel)
  rw [expressionAbove, provides, List.all_eq_true]
  intro growth applies
  refine providesGrown_of_subset ?_ (growths growth applies)
  refine List.append_subset.mpr ⟨List.subset_append_left _ _, ?_⟩
  refine List.subset_append_of_subset_right _ (List.map_subset _ fun other among => ?_)
  exact mem_operatorGrowths among

/-- What a rule of the grammar is known to make. -/
theorem provides_of_belongs {rule : Grammar.Rule} (belongs : Rule.Belongs rules rule) :
    provides rule = true := by
  obtain ⟨which, inside⟩ := belongs
  exact provides_rules which rule inside

end Grammar

open Grammar

/-! ## Lists of arguments -/

/-- A mark is no part. -/
theorem Node.isPart_of_mark {node : Node} {text : String} (isMark : node.kind = .mark text) :
    node.isPart = false := by
  simp [isPart, isConstruct, isMark]

/-- A part is no mark. -/
theorem Node.not_mark_of_isPart {node : Node} (isPart : node.isPart = true) (text : String) :
    (node.kind == .mark text) = false := by
  rw [beq_eq_false_iff_ne]
  intro isMark
  rw [isPart_of_mark isMark] at isPart
  contradiction

/-- There are no parts and no commas among nodes, or one part more than commas. -/
def Node.CommaSeparated (nodes : List Node) : Prop :=
  nodes.countP Node.isPart = 0 ∧ nodes.countP (·.kind == .mark ",") = 0 ∨
    nodes.countP Node.isPart = nodes.countP (·.kind == .mark ",") + 1

namespace Rule.Reads

variable {tokens rest : List Token} {nodes : List Node}

/-- A mark is read as a mark and comments. -/
theorem essentials_text {spelling : String} (sound : ∀ token ∈ tokens, token.Sound)
    (reads : Reads rules (.text spelling) tokens nodes rest) :
    ∃ node, Node.essentials nodes = [node] ∧ node.kind = .mark spelling := by
  cases reads with
  | text spells => exact ⟨_, (sound _ List.mem_cons_self).essentials_nodes rfl, rfl⟩

/-- An expression is read as one part and comments. -/
theorem essentials_expression {floor : Nat} {arrow : Bool} (sound : ∀ token ∈ tokens, token.Sound)
    (reads : Reads rules (.part (.expression floor arrow)) tokens nodes rest) :
    ∃ node, Node.essentials nodes = [node] ∧ node.isPart = true := by
  have matched := reads.inOrder knows_codeKnown sound _ rfl
  obtain ⟨node, single⟩ := List.length_eq_one_iff.mp matched.length_eq.symm
  have essential : node ∈ Node.essentials nodes := by simp [single]
  obtain ⟨inside, meant⟩ := Node.mem_essentials.mp essential
  refine ⟨node, single, ?_⟩
  rcases isAny_of_reads_expression sound reads node inside with extra | kinds
  · rw [meant] at extra
    contradiction
  · have place : (Place.root node).isAny (.superWord :: expressionConstructs) = true := kinds
    exact Place.isPart_of_isAny place (by decide)

/-- Parts, each behind a comma, are as many as the commas. Induction on the repetition. -/
theorem count_behindCommas (sound : ∀ token ∈ tokens, token.Sound)
    (reads : Reads rules (.many (.seq [.text ",", .part (.expression 0 true)])) tokens nodes
      rest) :
    (Node.essentials nodes).countP Node.isPart =
      (Node.essentials nodes).countP (·.kind == .mark ",") := by
  generalize same : Rule.many (.seq [.text ",", .part (Part.expression 0 true)]) = rule at reads
  induction reads with
  | manyNil => rfl
  | manyCons first later ihFirst ihLater =>
    obtain rfl := Rule.many.inj same
    have behind := ihLater (first.sound_rest sound) rfl
    cases first with
    | seqCons comma rest =>
      cases rest with
      | seqCons expression nothing =>
        cases nothing
        obtain ⟨mark, front, isComma⟩ := comma.essentials_text sound
        obtain ⟨part, back, isPart⟩ := expression.essentials_expression (comma.sound_rest sound)
        have noPart := Node.isPart_of_mark isComma
        have noComma := Node.not_mark_of_isPart isPart ","
        simp only [Node.essentials_append, front, back, List.append_nil, List.countP_append,
          behind]
        simp [isComma, noPart, isPart, noComma]
  | _ => contradiction

/-- Expressions with commas between them are none, or one more than the commas. -/
theorem commaSeparated_between (sound : ∀ token ∈ tokens, token.Sound)
    (reads : Reads rules (.choice [
      .seq [.part (.expression 0 true), .many (.seq [.text ",", .part (.expression 0 true)])],
      .seq []]) tokens nodes rest) : Node.CommaSeparated (Node.essentials nodes) := by
  cases reads with
  | choice chosen body =>
    simp only [List.mem_cons, List.not_mem_nil, or_false] at chosen
    rcases chosen with rfl | rfl
    · cases body with
      | seqCons expression later =>
        cases later with
        | seqCons more nothing =>
          cases nothing
          obtain ⟨part, single, isPart⟩ := expression.essentials_expression sound
          have noComma := Node.not_mark_of_isPart isPart ","
          have others := more.count_behindCommas (expression.sound_rest sound)
          right
          simp only [Node.essentials_append, single, List.append_nil, List.countP_append, others]
          simp [isPart, noComma, Nat.add_comm]
    · cases body
      exact .inl ⟨rfl, rfl⟩

/-- Arguments in parentheses are none, or one more than the commas between them. -/
theorem commaSeparated_arguments {rule : Grammar.Rule} (sound : ∀ token ∈ tokens, token.Sound)
    (reads : Reads rules rule tokens nodes rest) (isList : readsArguments rule = true) :
    Node.CommaSeparated (Node.essentials nodes) := by
  unfold readsArguments at isList
  split at isList
  · cases reads with
    | @seqCons _ _ _ _ _ _ _ opening later =>
      cases later with
      | @seqCons _ _ _ _ _ inner _ between later =>
        cases later with
        | seqCons closing nothing =>
          cases nothing
          obtain ⟨first, front, opens⟩ := opening.essentials_text sound
          have soundBetween := opening.sound_rest sound
          obtain ⟨last, back, closes⟩ := closing.essentials_text (between.sound_rest soundBetween)
          have noFirst := Node.isPart_of_mark opens
          have noLast := Node.isPart_of_mark closes
          have arguments := between.commaSeparated_between soundBetween
          unfold Node.CommaSeparated at arguments ⊢
          simp only [Node.essentials_append, front, back, List.append_nil, List.countP_append]
          simpa [opens, closes, noFirst, noLast] using arguments
  · contradiction

end Rule.Reads

/-! ## Constructs that hold what they must -/

/-- A construct has the children that are asked of it, they look as is asked, and if it is a list of
arguments there are none and no commas, or one more than commas. -/
structure Node.Complete (construct : Construct) (node : Node) : Prop where
  demanded : ∀ test ∈ demands construct, ∃ child ∈ node.children, child.isExtra = false ∧
    ∃ sight, test sight = true ∧ sight.Fits child
  allowed : ∀ child ∈ node.children, child.isExtra = true ∧ child.role = none ∨
    ∃ sight, allows construct sight = true ∧ sight.Fits child
  arguments : construct = .argumentList → Node.CommaSeparated (Node.essentials node.children)

namespace Rule.Origin

variable {node : Node} {construct : Construct}

/-- A construct without children of which nothing is asked holds what it must. -/
theorem complete_of_childless (childless : node.children = []) (nothing : demands construct = [])
    (other : construct ≠ .argumentList) : node.Complete construct where
  demanded := by simp [nothing]
  allowed := by simp [childless]
  arguments := fun itself => absurd itself other

/-- What is covered by the sights that a construct allows looks as is asked. -/
theorem allowed_of_cover {sights : List Sight} {nodes : List Node}
    (cover : Sight.Cover sights nodes) (checked : ∀ sight ∈ sights, allows construct sight = true)
    (children : node.children = nodes.dropWhile Node.isExtra) :
    ∀ child ∈ node.children, child.isExtra = true ∧ child.role = Option.none ∨
      ∃ sight, allows construct sight = true ∧ sight.Fits child := by
  intro child inside
  rw [children] at inside
  exact (cover child (List.dropWhile_subset _ inside)).imp_right
    fun ⟨_, sight, among, fits⟩ => ⟨sight, checked sight among, fits⟩

/-- Every construct of a source holds what it must. -/
theorem complete (origin : Origin rules node) (kind : node.kind = .construct construct) :
    node.Complete construct := by
  cases origin.built kind with
  | comment listed childless =>
    simp only [List.mem_cons, List.not_mem_nil, or_false] at listed
    rcases listed with rfl | rfl <;> exact complete_of_childless childless rfl (by decide)
  | leaf belongs childless | name belongs childless | literal belongs childless =>
    have checked := provides_of_belongs belongs
    simp only [provides, Bool.and_eq_true, List.isEmpty_iff, bne_iff_ne] at checked
    exact complete_of_childless childless checked.1 checked.2
  | node belongs reads genuine children =>
    have sound := fun token inside => (genuine token inside).sound
    have checked := provides_of_belongs belongs
    simp only [provides, Bool.and_eq_true, List.all_eq_true] at checked
    refine ⟨fun test asked => ?_,
      allowed_of_cover (reads.cover knows_callKnown sound) checked.1.2 children, ?_⟩
    · obtain ⟨child, inside, meant, looks⟩ :=
        reads.exists_of_assures knows_callKnown sound (checked.1.1 test asked)
      exact ⟨child, children ▸ mem_dropWhile_of_not_extra inside meant, meant, looks⟩
    · rintro rfl
      rw [children, Node.essentials_dropWhile]
      exact reads.commaSeparated_arguments sound (by simpa using checked.2)
  | @growth seed growths growth _ _ _ nodes tail belongs applies makes base later genuine
      children =>
    obtain rfl := makes
    have sound := fun token inside => (genuine token inside).sound
    have soundLater := base.sound_rest sound
    have checked := List.all_eq_true.mp (provides_of_belongs belongs) growth applies
    simp only [providesGrown, Bool.and_eq_true, List.all_eq_true, bne_iff_ne] at checked
    refine ⟨fun test asked => ?_, allowed_of_cover (Sight.Cover.append ?_ ?_) checked.1.2 children,
      fun itself => absurd itself checked.2⟩
    · obtain ⟨child, inside, meant, looks⟩ :=
        later.exists_of_assures knows_callKnown soundLater (checked.1.1 test asked)
      exact ⟨child, children ▸ mem_dropWhile_of_not_extra (List.mem_append_right _ inside) meant,
        meant, looks⟩
    · exact ((base.cover knows_callKnown sound).base growth).mono fun _ => List.mem_append_left _
    · exact (later.cover knows_callKnown soundLater).mono fun _ => List.mem_append_right _

end Rule.Origin

end CaretName
