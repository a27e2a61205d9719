import CaretName.Proofs.Tree.Holds

/-!
# Going outward

The places around a place form a chain, each one step less deep than the one before. A place of
the chain is told by its depth alone, so two children of one place are never both in it, and the
chain of a place ends in the chain of each place in it.
-/
namespace CaretName

namespace Place

variable {site inner around other : Place}

/-- The number of steps from the root. -/
def depth (place : Place) : Nat := place.above.length

/-- What lies around what lies around a place lies around the place. -/
theorem mem_outward_trans (outer : around ∈ inner.outward) (inside : inner ∈ site.outward) :
    around ∈ site.outward := by
  obtain ⟨node, above⟩ := site
  induction above generalizing node with
  | nil =>
    obtain rfl : inner = ⟨node, []⟩ := by simpa [outward, ancestors, along] using inside
    exact outer
  | cons step above ih =>
    rcases mem_outward.mp inside with rfl | further
    · exact outer
    · exact mem_outward.mpr (.inr (ih step.parent further))

/-- What lies around a place of the chain lies around its start. -/
theorem mem_ancestors_of_outward (outer : around ∈ inner.ancestors)
    (inside : inner ∈ site.outward) : around ∈ site.ancestors := by
  rcases mem_outward.mp inside with rfl | further
  · exact outer
  · obtain ⟨node, above⟩ := site
    cases above with
    | nil => simp [ancestors, along] at further
    | cons step above => exact mem_outward_trans (mem_outward.mpr (.inr outer)) further

/-- What lies around a place is less deep. -/
theorem depth_lt_of_mem_ancestors (outer : around ∈ site.ancestors) : around.depth < site.depth := by
  obtain ⟨node, above⟩ := site
  induction above generalizing node with
  | nil => simp [ancestors, along] at outer
  | cons step above ih =>
    have one : (Place.mk node (step :: above)).depth = above.length + 1 := rfl
    have outer : around = ⟨step.parent, above⟩ ∨ around ∈ (Place.mk step.parent above).ancestors :=
      mem_outward.mp outer
    rcases outer with rfl | further
    · rw [one]
      exact Nat.lt_succ_self _
    · have less := ih step.parent further
      rw [one]
      exact Nat.lt_succ_of_lt less

/-- Two places around a place that are equally deep are the same. -/
theorem eq_of_mem_outward (one : around ∈ site.outward) (two : other ∈ site.outward)
    (same : around.depth = other.depth) : around = other := by
  obtain ⟨node, above⟩ := site
  induction above generalizing node with
  | nil =>
    obtain rfl : around = ⟨node, []⟩ := by simpa [outward, ancestors, along] using one
    obtain rfl : other = ⟨node, []⟩ := by simpa [outward, ancestors, along] using two
    rfl
  | cons step above ih =>
    rcases mem_outward.mp one with rfl | furtherOne
    · rcases mem_outward.mp two with rfl | furtherTwo
      · rfl
      · have less := depth_lt_of_mem_ancestors furtherTwo
        omega
    · rcases mem_outward.mp two with rfl | furtherTwo
      · have less := depth_lt_of_mem_ancestors furtherOne
        omega
      · exact ih step.parent furtherOne furtherTwo

/-- A child is one step deeper. -/
theorem depth_of_mem_children {child : Place} (below : child ∈ around.children) :
    child.depth = around.depth + 1 := by
  obtain ⟨index, above⟩ := above_of_mem_children below
  rw [depth, above]
  rfl

/-- A place with a parent is one step deeper than it. -/
theorem depth_of_parent? (above : inner.parent? = some around) : inner.depth = around.depth + 1 := by
  obtain ⟨node, steps⟩ := inner
  cases steps with
  | nil => simp [parent?] at above
  | cons step steps =>
    obtain rfl : Place.mk step.parent steps = around := by simpa [parent?] using above
    rfl

/-- Around a place lie its parent and what lies around that. -/
theorem ancestors_of_parent? (above : inner.parent? = some around) :
    inner.ancestors = around.outward := by
  obtain ⟨node, steps⟩ := inner
  cases steps with
  | nil => simp [parent?] at above
  | cons step steps =>
    obtain rfl : Place.mk step.parent steps = around := by simpa [parent?] using above
    rfl

/-- The parent of a place lies around it. -/
theorem mem_ancestors_of_parent? (above : inner.parent? = some around) : around ∈ inner.ancestors := by
  rw [ancestors_of_parent? above]
  exact List.mem_cons_self

/-- A place is in the chain of each of its children. -/
theorem mem_outward_of_mem_children {child : Place} (below : child ∈ around.children) :
    around ∈ child.outward :=
  mem_outward.mpr (.inr (mem_ancestors_of_parent? (parent?_of_mem_children below)))

/-- The parent of a place is the nearest place around it. -/
theorem parent?_eq_head? (place : Place) : place.parent? = place.ancestors.head? := by
  obtain ⟨node, above⟩ := place
  cases above <;> rfl

/-- The chain of a place leads through places inside another to the chain of that one. -/
theorem outward_eq_append (around_site : around ∈ site.outward) :
    ∃ inside, site.outward = inside ++ around.outward ∧
      ∀ inner ∈ inside, inner ∈ site.outward ∧ around ∈ inner.ancestors := by
  obtain ⟨node, above⟩ := site
  induction above generalizing node with
  | nil =>
    obtain rfl : around = ⟨node, []⟩ := by simpa [outward, ancestors, along] using around_site
    exact ⟨[], rfl, by simp⟩
  | cons step above ih =>
    rcases mem_outward.mp around_site with rfl | further
    · exact ⟨[], rfl, by simp⟩
    · obtain ⟨inside, chain, between⟩ := ih step.parent further
      refine ⟨⟨node, step :: above⟩ :: inside, ?_, ?_⟩
      · rw [List.cons_append, ← chain]
        rfl
      · refine List.forall_mem_cons.mpr ⟨⟨List.mem_cons_self, further⟩, fun inner listed => ?_⟩
        obtain ⟨inChain, outer⟩ := between inner listed
        exact ⟨mem_outward.mpr (.inr inChain), outer⟩

/-- What holds of all places between two places of a chain can be checked place by place. -/
theorem between_of_all {checks : Place → Bool} (checked : site.outward.all (fun inner =>
    !inner.ancestors.any around.same || checks inner) = true) :
    ∀ inner ∈ site.outward, around ∈ inner.ancestors → checks inner = true := by
  intro inner listed outer
  have either := List.all_eq_true.mp checked inner listed
  have between : inner.ancestors.any around.same = true :=
    List.any_eq_true.mpr ⟨around, outer, by simp [same]⟩
  rwa [between, Bool.not_true, Bool.false_or] at either

end Place

end CaretName
