import CaretName.Proofs.SourceFile.Extent
import CaretName.Proofs.SourceFile.Locality

/-!
# Locals are declared before they are used

Local variables and the variables of patterns are shown as earlier parts of a construct only, and
in a tree that is laid out an earlier part has ended before a later one starts. So wherever a name
means a variable of this kind its declaration has ended, and a use ahead of that end means a
variable that is declared further out, or nothing.
-/
namespace CaretName

open Grammar

namespace Place

variable {root : Node} {site inner around part own declaration parent : Place} {name : String}

/-- A variable is declared by a declaration of local variables. -/
def IsLocalOf (declaration own : Place) : Prop :=
  declaration.is .localVariableDeclaration = true ∧
    ∃ declarator ∈ declaration.declarators, own.parent? = some declarator

/-- A variable is introduced by a pattern: a type test or a part of one. -/
def IsPatternOf (pattern own : Place) : Prop :=
  pattern.isAny [.instanceofExpression, .typePattern] = true ∧ own.parent? = some pattern

/-- A local variable lies inside its declaration. -/
theorem IsLocalOf.inside (isLocal : declaration.IsLocalOf own) : declaration ∈ own.outward := by
  obtain ⟨_, declarator, listed, above⟩ := isLocal
  have below := (List.mem_filter.mp listed).1
  exact mem_outward.mpr (.inr (mem_ancestors_of_child below (mem_ancestors_of_parent? above)))

/-- The variable of a pattern lies inside it. -/
theorem IsPatternOf.inside (isPattern : declaration.IsPatternOf own) : declaration ∈ own.outward :=
  mem_outward.mpr (.inr (mem_ancestors_of_parent? isPattern.2))

/-- A construct shows the variable of a pattern only for an earlier part that holds it. -/
theorem Binds.exists_part_of_pattern (wf : WellFormed root) (held : root.Holds around)
    {form : BindingForm} (binds : Binds name inner around form own)
    (isPattern : declaration.IsPatternOf own) :
    ∃ part ∈ around.partsBefore inner, part ∈ declaration.outward := by
  obtain ⟨kinds, above⟩ := isPattern
  obtain ⟨construct, among, kind⟩ := isAny_iff.mp kinds
  have listed := binds.mem_parents wf held above (is_iff.mpr kind)
  have within {searched : Place} (named : searched.patternNamed? name = some own) :
      searched ∈ declaration.outward := by
    obtain ⟨other, above', _, inside⟩ := parent?_of_patternNamed? named
    obtain rfl : declaration = other := Option.some.inj (above.symm.trans above')
    exact inside
  have only : ∀ construct ∈ [Construct.instanceofExpression, .typePattern],
      construct ∈ form.parents → form = .condition ∨ form = .pattern := by
    cases form <;> decide
  rcases only construct among listed with rfl | rfl
  · cases binds with
    | @condition part _ _ _ before _ child named =>
      have outer := mem_outward_of_mem_children (mem_children_of_child? child).1
      exact ⟨part, before, mem_outward_trans outer (within named)⟩
  · cases binds with
    | @pattern part _ _ before named => exact ⟨part, before, within named⟩

/-- What the earlier parts of a construct hold has ended before the place starts. -/
theorem stop_le_of_partsBefore (wf : WellFormed root) (held : root.Holds site)
    (inChain : inner ∈ site.outward) (above : inner.parent? = some around)
    (before : part ∈ around.partsBefore inner) (heldOwn : root.Holds own)
    (inside : part ∈ own.outward) : own.stop ≤ site.start := by
  obtain ⟨below, earlier⟩ := mem_partsBefore before
  obtain ⟨heldAround, below'⟩ := (held.of_outward inChain).parent above
  calc own.stop
    _ ≤ part.stop := (heldOwn.within_outward wf.laid inside).2
    _ ≤ inner.start := (heldAround.laid wf.laid).stop_le (node_mem_of_mem_children below)
      (node_mem_of_mem_children below') earlier
    _ ≤ site.start := (held.within_outward wf.laid inChain).1

/-- A local variable is found only where its declaration has ended. -/
theorem stop_le_of_isLocalOf (wf : WellFormed root) (held : root.Holds site)
    (named : site.variableNamed? name = some own) (isLocal : declaration.IsLocalOf own) :
    declaration.stop ≤ site.start := by
  obtain ⟨inner, inChain, _, around, form, above, heldAround, binds⟩ :=
    exists_binds_of_variableNamed? held named
  have heldDeclaration := (isVariable_of_variableNamed? held named).held.of_outward isLocal.inside
  obtain ⟨itself, declarator, listed, above'⟩ := isLocal
  have before := binds.mem_partsBefore_of_local wf heldAround heldDeclaration itself listed above'
  exact stop_le_of_partsBefore wf held inChain above before heldDeclaration List.mem_cons_self

/-- The variable of a pattern is found only where the pattern has ended. -/
theorem stop_le_of_isPatternOf (wf : WellFormed root) (held : root.Holds site)
    (named : site.variableNamed? name = some own) (isPattern : declaration.IsPatternOf own) :
    declaration.stop ≤ site.start := by
  obtain ⟨inner, inChain, _, around, form, above, heldAround, binds⟩ :=
    exists_binds_of_variableNamed? held named
  have heldOwn := (isVariable_of_variableNamed? held named).held
  obtain ⟨part, before, inside⟩ := binds.exists_part_of_pattern wf heldAround isPattern
  exact stop_le_of_partsBefore wf held inChain above before (heldOwn.of_outward isPattern.inside)
    inside

/-- A place stands ahead of the end of a declaration: before it or in it. -/
def AheadOf (site declaration : Place) : Prop :=
  site.start < declaration.stop ∨ declaration ∈ site.outward

/-- A name ahead of the end of a local declaration means none of its variables. -/
theorem variableNamed?_ne_later (wf : WellFormed root) (held : root.Holds site)
    (isLocal : declaration.IsLocalOf own) (ahead : site.AheadOf declaration) :
    site.variableNamed? name ≠ some own := by
  rcases ahead with before | inside
  · intro named
    have ended := stop_le_of_isLocalOf wf held named isLocal
    omega
  · obtain ⟨itself, declarator, listed, above⟩ := isLocal
    exact variableNamed?_ne_own wf held inside itself listed above

/-- Where a name means a local variable or the variable of a pattern, the declaration or the
pattern has ended before the place starts. A place ahead of the end of a declaration is given none
of its variables; if a construct declares the name in such declarations only, the name means at the
place what it means outside the construct: a variable declared further out, or nothing. -/
theorem declared_before_use (wf : WellFormed root) (held : root.Holds site) (name : String) :
    (∀ own declaration : Place, site.variableNamed? name = some own →
      declaration.IsLocalOf own ∨ declaration.IsPatternOf own →
        own.stop ≤ declaration.stop ∧ declaration.stop ≤ site.start) ∧
    (∀ own declaration : Place, declaration.IsLocalOf own → site.AheadOf declaration →
      site.variableNamed? name ≠ some own) ∧
    (∀ around ∈ site.outward,
      (∀ own, VariableInside root name around own →
        ∃ declaration : Place, declaration.IsLocalOf own ∧ site.AheadOf declaration) →
      site.variableNamed? name = around.variableNamed? name ∧
        ∀ own, site.variableNamed? name = some own → around ∉ own.outward) := by
  refine ⟨?ended, ?later, ?outer⟩
  case ended =>
    intro own declaration named introduces
    have heldOwn := (isVariable_of_variableNamed? held named).held
    rcases introduces with isLocal | isPattern
    · exact ⟨(heldOwn.within_outward wf.laid isLocal.inside).2,
        stop_le_of_isLocalOf wf held named isLocal⟩
    · exact ⟨(heldOwn.within_outward wf.laid isPattern.inside).2,
        stop_le_of_isPatternOf wf held named isPattern⟩
  case later =>
    intro own declaration isLocal ahead
    exact variableNamed?_ne_later wf held isLocal ahead
  case outer =>
    intro around inside allLater
    have notInside : ∀ own, VariableInside root name around own →
        site.variableNamed? name ≠ some own := by
      intro own declared
      obtain ⟨declaration, isLocal, ahead⟩ := allLater own declared
      exact variableNamed?_ne_later wf held isLocal ahead
    constructor
    · exact (variableNamed?_inside_or_eq wf held inside name).resolve_left
        fun ⟨own, declared, named⟩ => notInside own declared named
    · intro own named lies
      have found := isVariable_of_variableNamed? held named
      exact notInside own ⟨found.held, lies, found.declares wf, found.spelled⟩ named

/-- A method that uses a field and then a local variable of the same name. -/
def fieldThenLocal : String :=
  "class A { String x; void f() { x.m(); int x = 1; x++; } }"

/-- Only the use behind the declaration means the local variable. -/
theorem declared_before_use_of_two : accepts fieldThenLocal = true ∧
    ∃ early late own field declaration : Place,
      (parse fieldThenLocal).Holds early ∧ (parse fieldThenLocal).Holds late ∧
      declaration.IsLocalOf own ∧ late.variableNamed? "x" = some own ∧
      declaration.stop ≤ late.start ∧ early.AheadOf declaration ∧
      early.variableNamed? "x" = some field ∧ early.variableNamed? "x" ≠ some own := by
  have used : (accepts fieldThenLocal && ((parse fieldThenLocal).places []).any fun declaration =>
      declaration.is .localVariableDeclaration && declaration.declarators.any fun declarator =>
        (declarator.child? .name).any fun own =>
          ((parse fieldThenLocal).places []).any (fun late =>
            (late.variableNamed? "x").any own.same) &&
          ((parse fieldThenLocal).places []).any fun early =>
            decide (early.start < declaration.stop) &&
              (early.variableNamed? "x").isSome) = true := by
    decide +kernel
  obtain ⟨accepted, declaration, held, used⟩ := exists_held_of_search used
  simp only [Bool.and_eq_true, List.any_eq_true, Option.any_eq_true, decide_eq_true_eq,
    Option.isSome_iff_exists] at used
  obtain ⟨itself, declarator, listed, own, child, ⟨late, listed', found, named, isOwn⟩, early,
    listed'', before, field, named'⟩ := used
  have wf := wellFormed_parse accepted
  have heldLate : (parse fieldThenLocal).Holds late := Node.Holds.root.of_mem_places listed'
  have heldEarly : (parse fieldThenLocal).Holds early := Node.Holds.root.of_mem_places listed''
  have heldOwn := (held.child (List.mem_filter.mp listed).1).of_child? child
  obtain rfl : own = found :=
    (heldOwn.same_iff (isVariable_of_variableNamed? heldLate named).held).mp isOwn
  have isLocal : declaration.IsLocalOf own :=
    ⟨itself, declarator, listed, parent?_of_mem_children (mem_children_of_child? child).1⟩
  have ended := (declared_before_use wf heldLate "x").1 own declaration named (.inl isLocal)
  have apart := (declared_before_use wf heldEarly "x").2.1 own declaration isLocal (.inl before)
  exact ⟨accepted, early, late, own, field, declaration, heldEarly, heldLate, isLocal, named,
    ended.2, .inl before, named', apart⟩

end Place

end CaretName
