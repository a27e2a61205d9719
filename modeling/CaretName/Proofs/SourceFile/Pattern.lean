import CaretName.Proofs.Grammar.Contents
import CaretName.Proofs.SourceFile.Coherence
import CaretName.Proofs.SourceFile.Scope

/-!
# Variables of patterns

The variable of a type pattern in the label of a switch shows its type where it is declared, but
the search for variables never comes upon it in the branch of the label: the branch is no
construct whose earlier parts are searched for patterns. The name in a component of a record
pattern does not even count as a declaration.
-/
namespace CaretName

open Grammar

namespace Place

variable {root : Node} {site inner around branch label pattern own place : Place} {name : String}

/-! ## Type patterns -/

/-- The name in a type pattern is that of its variable. -/
theorem patternName?_eq (wf : WellFormed root) (held : root.Holds pattern)
    (isPattern : pattern.is .typePattern = true) : ∃ type own, pattern.parts = [type, own] ∧
      pattern.constructs.head? = some type ∧ own.is .identifier = true ∧
      pattern.patternName? = some own := by
  obtain ⟨type, own, parts, first, identifier, free⟩ := wf.parts_typePattern held isPattern
  refine ⟨type, own, parts, first, identifier, ?_⟩
  rw [patternName?, free, parts]
  simp [identifier]

/-- The variable of a type pattern has the type that is written in front of it. -/
theorem variableElement_typePattern (wf : WellFormed root) (held : root.Holds pattern)
    (isPattern : pattern.is .typePattern = true) {type : Place}
    (first : pattern.constructs.head? = some type) (identifier : own.is .identifier = true)
    (chosen : pattern.patternName? = some own) :
    own.declaresVariable = true ∧
      own.variableElement = .variable (compactType type.text) own.text := by
  have named : pattern.patternName?.bind (named? own.text) = some own := by
    rw [chosen, Option.bind_some]
    simp [named?, identifier]
  have declares := (isVariable_of_patternName? held isPattern named).declares wf
  refine ⟨declares, ?_⟩
  have above := parent?_of_mem_children (mem_children_of_patternName? chosen)
  have kinds := isAny_of_is isPattern (List.mem_singleton_self _)
  have noDeclarator : pattern.is .variableDeclarator = false := is_eq_false kinds (by decide)
  have noParameter : pattern.is .formalParameter = false := is_eq_false kinds (by decide)
  have noHandler : pattern.is .catchFormalParameter = false := is_eq_false kinds (by decide)
  have noLoop : pattern.isAny [.enhancedForStatement, .resource] = false :=
    isAny_eq_false kinds (by decide)
  have noTest : pattern.is .instanceofExpression = false := is_eq_false kinds (by decide)
  have typed : own.declaredType? = some (type.written "") := by
    simp [declaredType?, declares, above, noDeclarator, noParameter, noHandler, noLoop, noTest,
      isPattern, first]
  rw [variableElement, typed]
  simp [written]

/-! ## Labels of switches -/

/-- Constructs that are one branch of a switch, with an arrow or with a colon. -/
def switchBranches : List Construct := [.switchRule, .switchBlockStatementGroup]

/-- A type pattern is what a branch of a switch is for. -/
inductive IsCaseOf (branch : Place) : Place → Prop
  /-- The pattern in the label of the branch. -/
  | intro {label case pattern : Place} (isBranch : branch.isAny switchBranches = true)
    (inBranch : label ∈ branch.parts) (isLabel : label.is .switchLabel = true)
    (inLabel : case ∈ label.parts) (isCase : case.is .pattern = true)
    (inCase : pattern ∈ case.parts) (isPattern : pattern.is .typePattern = true) :
    IsCaseOf branch pattern

/-- The pattern of a branch of the tree belongs to the tree. -/
theorem IsCaseOf.held (isCase : IsCaseOf branch pattern) (held : root.Holds branch) :
    root.Holds pattern ∧ pattern.is .typePattern = true := by
  cases isCase with
  | intro _ inBranch _ inLabel _ inCase isPattern =>
    exact ⟨((held.of_part inBranch).of_part inLabel).of_part inCase, isPattern⟩

/-- Only patterns are searched for the variable of a type pattern. -/
theorem eq_condition_or_pattern {form : BindingForm} (listed : .typePattern ∈ form.parents) :
    form = .condition ∨ form = .pattern := by
  revert listed
  cases form <;> decide

/-- No construct around the pattern of a branch up to the branch is searched for patterns, and
what is earlier in a construct around the branch does not hold it. -/
theorem IsCaseOf.not_searched (isCase : IsCaseOf branch pattern) (outer : branch ∈ site.ancestors)
    (inChain : inner ∈ site.outward) (above : inner.parent? = some around) {part : Place}
    (before : part ∈ around.partsBefore inner) (holds : part ∈ pattern.outward) :
    around.isAny patternScopes = false ∧ part.is .ifStatement = false := by
  have apart := not_mem_outward_of_partsBefore above inChain before
  have abovePart := parent?_of_mem_children (mem_partsBefore before).1
  cases isCase with
  | @intro label case _ isBranch inBranch isLabel inLabel isCase inCase isPattern =>
    have aboveLabel := parent?_of_mem_children (mem_children_of_mem_parts inBranch)
    have aboveCase := parent?_of_mem_children (mem_children_of_mem_parts inLabel)
    have abovePattern := parent?_of_mem_children (mem_children_of_mem_parts inCase)
    -- What lies around the branch lies around the site, so the part is inside the branch.
    have outside : part ∉ branch.outward := fun further =>
      apart (mem_outward_trans further (mem_outward.mpr (.inr outer)))
    rw [mem_outward, ancestors_of_parent? abovePattern, mem_outward,
      ancestors_of_parent? aboveCase, mem_outward, ancestors_of_parent? aboveLabel] at holds
    rcases holds with rfl | rfl | rfl | further
    · obtain rfl : case = around := Option.some.inj (abovePattern.symm.trans abovePart)
      exact ⟨isAny_eq_false (isAny_of_is isCase (List.mem_singleton_self _)) (by decide),
        is_eq_false (isAny_of_is isPattern (List.mem_singleton_self _)) (by decide)⟩
    · obtain rfl : label = around := Option.some.inj (aboveCase.symm.trans abovePart)
      exact ⟨isAny_eq_false (isAny_of_is isLabel (List.mem_singleton_self _)) (by decide),
        is_eq_false (isAny_of_is isCase (List.mem_singleton_self _)) (by decide)⟩
    · obtain rfl : branch = around := Option.some.inj (aboveLabel.symm.trans abovePart)
      exact ⟨isAny_eq_false isBranch (by decide),
        is_eq_false (isAny_of_is isLabel (List.mem_singleton_self _)) (by decide)⟩
    · exact absurd further outside

/-- No place in a branch of a switch is shown the variable of the pattern of the branch. -/
theorem IsCaseOf.variableNamed?_ne (isCase : IsCaseOf branch pattern) (wf : WellFormed root)
    (held : root.Holds site) (outer : branch ∈ site.ancestors)
    (aboveOwn : own.parent? = some pattern) : site.variableNamed? name ≠ some own := by
  intro named
  obtain ⟨inner, inChain, _, around, form, above, heldAround, binds⟩ :=
    exists_binds_of_variableNamed? held named
  have isPattern := (isCase.held (held.of_ancestor outer)).2
  -- The earlier part that was searched holds the pattern.
  have inside : ∀ searched : Place, searched.patternNamed? name = some own →
      searched ∈ pattern.outward := by
    intro searched named
    obtain ⟨parent, above', _, inside⟩ := parent?_of_patternNamed? named
    obtain rfl : pattern = parent := Option.some.inj (aboveOwn.symm.trans above')
    exact inside
  rcases eq_condition_or_pattern (binds.mem_parents wf heldAround aboveOwn isPattern) with rfl | rfl
  · cases binds with
    | @condition part _ _ isList before isIf child named =>
      have below := (mem_children_of_child? child).1
      have holds := mem_outward_trans (mem_outward_of_mem_children below) (inside _ named)
      have other := (isCase.not_searched outer inChain above before holds).2
      rw [isIf] at other
      contradiction
  · cases binds with
    | pattern isScope before named =>
      have other := (isCase.not_searched outer inChain above before (inside _ named)).1
      rw [isScope] at other
      contradiction

end Place

namespace SourceFile

open Place

variable {root : Node} {site branch pattern component own : Place}

/-- No other name in a branch of a switch resolves to the variable of the pattern of the branch. -/
theorem meaning_ne_pattern (wf : WellFormed root) (held : root.Holds site)
    (isCase : IsCaseOf branch pattern) (outer : branch ∈ site.ancestors)
    (aboveOwn : own.parent? = some pattern) (other : site ≠ own) :
    (ofRoot root).meaning site ≠ .binding own := by
  intro means
  have isPattern := (isCase.held (held.of_ancestor outer)).2
  have kinds := isAny_of_is isPattern (List.mem_singleton_self _)
  have resolves := (ofRoot root).resolves_meaning site
  rw [means] at resolves
  cases resolves with
  | declaredVariable declares => exact other rfl
  | field above use found =>
    obtain ⟨scope, receives, named⟩ := Option.bind_eq_some_iff.mp found
    obtain ⟨object, child, receives⟩ := Option.bind_eq_some_iff.mp receives
    have heldObject := (held.parent above).1.of_child? child
    have heldScope := held_of_receiver? heldObject receives
    obtain ⟨parent, stands⟩ := StandsIn.of_fieldNamed? wf heldScope named
    obtain rfl : pattern = parent := Option.some.inj (aboveOwn.symm.trans stands.above)
    have apart : pattern.isAny BindingForm.member.parents = false :=
      isAny_eq_false kinds (by decide)
    rw [stands.kinds] at apart
    contradiction
  | constant use found =>
    obtain ⟨member, _, named⟩ := List.exists_of_findSome?_eq_some found
    split at named
    · next isConstant =>
      obtain rfl : pattern = member :=
        Option.some.inj (aboveOwn.symm.trans (parent?_of_nameIs? named))
      have apart : pattern.is .enumConstant = false := is_eq_false kinds (by decide)
      rw [isConstant] at apart
      contradiction
    · contradiction
  | inScope use found => exact isCase.variableNamed?_ne wf held outer aboveOwn found

/-! ## Components of record patterns -/

/-- The name in a component of a record pattern is no declaration, and nothing resolves to it. -/
theorem declaresVariable_component (isComponent : component.is .recordPatternComponent = true)
    (below : own ∈ component.parts) : own.declaresVariable = false := by
  have kinds := isAny_of_is isComponent (List.mem_singleton_self _)
  exact declaresVariable_eq_false (parent?_of_mem_children (mem_children_of_mem_parts below))
    (isAny_eq_false kinds (by decide))

/-- The name in a component of a record pattern means what it would mean in an expression. -/
theorem nameElement_component (isComponent : component.is .recordPatternComponent = true)
    (below : own ∈ component.parts) : (ofRoot root).nameElement own =
      own.headerElement?.getD ((ofRoot root).plainNameElement own) := by
  have above := parent?_of_mem_children (mem_children_of_mem_parts below)
  have kinds := isAny_of_is isComponent (List.mem_singleton_self _)
  rw [nameElement_of_parent _ above kinds (by decide),
    declaresVariable_component isComponent below, if_neg Bool.false_ne_true,
    roleElement_eq_plain _ (isAny_eq_false kinds (by decide))]

/-- The variable of a type pattern in the label of a switch shows its type where it is declared,
but no other name in the branch resolves to it: each means what it means outside the branch. The
name in a component of a record pattern declares nothing, so that no name resolves to it, and
shows what it would show in an expression. -/
theorem pattern_variables (wf : WellFormed root) :
    (∀ branch pattern, root.Holds branch → IsCaseOf branch pattern →
      ∃ type own, pattern.parts = [type, own] ∧
        (ofRoot root).Shows own (.variable (compactType type.text) own.text) ∧
        ∀ site, root.Holds site → branch ∈ site.ancestors → site ≠ own →
          (ofRoot root).meaning site ≠ .binding own ∧
          ∀ name, Unshadowed name site branch →
            site.variableNamed? name = branch.variableNamed? name) ∧
    (∀ component own, root.Holds component → component.is .recordPatternComponent = true →
      own ∈ component.parts → own.is .identifier = true →
        own.declaresVariable = false ∧
        (∀ site, root.Holds site → (ofRoot root).meaning site ≠ .binding own) ∧
        (ofRoot root).Shows own
          (own.headerElement?.getD ((ofRoot root).plainNameElement own))) := by
  refine ⟨?cases, ?components⟩
  case cases =>
    intro branch pattern heldBranch isCase
    obtain ⟨heldPattern, isPattern⟩ := isCase.held heldBranch
    obtain ⟨type, own, parts, first, identifier, chosen⟩ := patternName?_eq wf heldPattern isPattern
    obtain ⟨declares, element⟩ :=
      variableElement_typePattern wf heldPattern isPattern first identifier chosen
    have below := mem_children_of_patternName? chosen
    refine ⟨type, own, parts, ?_, fun site held outer other => ⟨?_, fun name unshadowed => ?_⟩⟩
    · rw [shows_name_iff wf (heldPattern.child below) (isName_of_identifier identifier),
        nameElement_of_declaresVariable _ declares, element]
    · exact meaning_ne_pattern wf held isCase outer (parent?_of_mem_children below) other
    · exact variableNamed?_of_unshadowed (mem_outward.mpr (.inr outer)) unshadowed
  case components =>
    intro component own heldComponent isComponent below identifier
    have silent := declaresVariable_component isComponent below
    have heldOwn := heldComponent.of_part below
    refine ⟨silent, fun site held means => ?_, ?_⟩
    · have declares : own.declaresVariable = true := by
        rcases isVariable_of_meaning (ofRoot root) held means with ⟨declares, rfl⟩ | ⟨_, found⟩
        · exact declares
        · exact found.declares wf
      rw [silent] at declares
      contradiction
    · rw [shows_name_iff wf heldOwn (isName_of_identifier identifier)]
      exact nameElement_component isComponent below

/-- A type pattern in one branch of a switch and a record pattern in the next. -/
def switchOverPatterns : String :=
  "class A { void f() { switch (o) { case S s -> g(s); case R(T t) -> h(); } } }"

/-- A use in the branch of a type pattern does not resolve to the variable of the pattern, and the
name in a record pattern declares none. -/
theorem pattern_variables_switch :
    (∃ branch pattern type own site : Place,
      (parse switchOverPatterns).Holds site ∧ IsCaseOf branch pattern ∧
      pattern.parts = [type, own] ∧ branch ∈ site.ancestors ∧ site.text = "s" ∧ site ≠ own ∧
      (ofRoot (parse switchOverPatterns)).meaning site ≠ .binding own) ∧
    ∃ component own : Place, component.is .recordPatternComponent = true ∧ own ∈ component.parts ∧
      own.is .identifier = true ∧ own.declaresVariable = false := by
  have used : (accepts switchOverPatterns && ((parse switchOverPatterns).places []).any fun site =>
      site.text == "s" && site.parent?.any (·.is .argumentList) &&
        site.ancestors.any fun branch => branch.isAny switchBranches &&
          branch.parts.any fun label => label.is .switchLabel &&
            label.parts.any fun case => case.is .pattern &&
              case.parts.any (·.is .typePattern)) = true := by decide +kernel
  have taken : (accepts switchOverPatterns && ((parse switchOverPatterns).places []).any
      fun component => component.is .recordPatternComponent &&
        component.parts.any (·.is .identifier)) = true := by decide +kernel
  obtain ⟨accepted, site, held, used⟩ := exists_held_of_search used
  obtain ⟨_, component, heldComponent, taken⟩ := exists_held_of_search taken
  obtain ⟨cases, components⟩ := pattern_variables (wellFormed_parse accepted)
  constructor
  · simp only [Bool.and_eq_true, List.any_eq_true, Option.any_eq_true, beq_iff_eq] at used
    obtain ⟨⟨spelled, around, above, isArguments⟩, branch, outer, isBranch, label, inBranch,
      isLabel, case, inLabel, isCase, pattern, inCase, isPattern⟩ := used
    have isCaseOf : IsCaseOf branch pattern :=
      .intro isBranch inBranch isLabel inLabel isCase inCase isPattern
    obtain ⟨type, own, parts, _, others⟩ :=
      cases branch pattern (held.of_ancestor outer) isCaseOf
    have other : site ≠ own := by
      rintro rfl
      have inside : site ∈ pattern.parts := by simp [parts]
      have abovePattern := parent?_of_mem_children (mem_children_of_mem_parts inside)
      obtain rfl : around = pattern := Option.some.inj (above.symm.trans abovePattern)
      have apart : around.is .typePattern = false :=
        is_eq_false (isAny_of_is isArguments (List.mem_singleton_self _)) (by decide)
      exact absurd isPattern (Bool.eq_false_iff.mp apart)
    exact ⟨branch, pattern, type, own, site, held, isCaseOf, parts, outer, spelled, other,
      (others site held outer other).1⟩
  · simp only [Bool.and_eq_true, List.any_eq_true] at taken
    obtain ⟨isComponent, own, below, identifier⟩ := taken
    obtain ⟨silent, _⟩ := components component own heldComponent isComponent below identifier
    exact ⟨component, own, isComponent, below, identifier, silent⟩

/-- A branch of a switch that uses the variable of its pattern. -/
def switchOverStrings : String :=
  "class A { void f(Object o) { switch (o) { case String s -> s.length(); } } }"

/-- The variable of a pattern is lost in its own branch. -/
theorem pattern_variable_lost :
    accepts switchOverStrings = true ∧
      ∃ branch pattern own site : Place,
        IsCaseOf branch pattern ∧ pattern.patternName? = some own ∧
        branch ∈ site.ancestors ∧ site.text = own.text ∧ Unshadowed site.text site branch ∧
        (ofRoot (parse switchOverStrings)).Shows own (.variable "String" "s") ∧
        (ofRoot (parse switchOverStrings)).Shows site .other := by
  have used : (accepts switchOverStrings && ((parse switchOverStrings).places []).any fun site =>
      site.is .identifier && (ofRoot (parse switchOverStrings)).nameElement site == .other &&
        site.ancestors.any fun branch => branch.isAny switchBranches &&
          site.outward.all (fun inner => !inner.ancestors.any branch.same ||
            (inner.variableAround? site.text).isNone) &&
          branch.parts.any fun label => label.is .switchLabel &&
            label.parts.any fun case => case.is .pattern &&
              case.parts.any fun pattern => pattern.is .typePattern &&
                pattern.patternName?.any fun own =>
                  own.is .identifier && own.text == site.text &&
                    (ofRoot (parse switchOverStrings)).nameElement own ==
                      .variable "String" "s") = true := by decide +kernel
  obtain ⟨accepted, site, held, used⟩ := exists_held_of_search used
  simp only [Bool.and_eq_true, List.any_eq_true, Option.any_eq_true, beq_iff_eq,
    List.all_eq_true, Bool.or_eq_true, Bool.not_eq_true', Option.isNone_iff_eq_none] at used
  obtain ⟨⟨isSite, shown⟩, branch, outer, ⟨isBranch, unshadowed⟩, label, inBranch, isLabel, case,
    inLabel, isCase, pattern, inCase, isPattern, own, chosen, ⟨isOwn, spelled⟩, declared⟩ := used
  have wf := wellFormed_parse accepted
  have isCaseOf : IsCaseOf branch pattern :=
    .intro isBranch inBranch isLabel inLabel isCase inCase isPattern
  have heldOwn := (isCaseOf.held (held.of_ancestor outer)).1.child
    (mem_children_of_patternName? chosen)
  refine ⟨accepted, branch, pattern, own, site, isCaseOf, chosen, outer, spelled.symm, ?_,
    (shows_name_iff wf heldOwn (isName_of_identifier isOwn)).mpr declared,
    (shows_name_iff wf held (isName_of_identifier isSite)).mpr shown⟩
  intro inner inChain further
  refine (unshadowed inner inChain).resolve_left fun apart => ?_
  have itself := List.any_eq_false.mp apart branch further
  simp [same] at itself

end SourceFile

end CaretName
