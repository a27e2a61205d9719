import CaretName.Proofs.Tree.Outward

/-!
# Preorder

In preorder a place stands before all that lies in it, and of two children the first one and all
that lies in it stand before the second one. The order compares the ways from the root, child by
child. `search_inPreorder` is about the loop that goes through a tree with a stack: it lists what
is reached through parts alone, each place once and in this order, as the recursive traversal does.
-/
namespace CaretName

/-- The places that are reached from the root of a tree through parts alone. -/
inductive Node.Reaches (root : Node) : Place → Prop
  /-- The root itself. -/
  | root : root.Reaches (.root root)
  /-- A part of a place that is reached. -/
  | part {place part : Place} (reached : root.Reaches place) (below : part ∈ place.parts) :
    root.Reaches part

namespace Place

/-- A place comes before another in preorder: its way from the root ends where that of the other
goes on, or takes the earlier child where the two ways part. -/
def Before (place other : Place) : Prop := place.path.reverse < other.path.reverse

/-- A place and all that lies in it come before another and all that lies in that. -/
def WhollyBefore (place other : Place) : Prop :=
  ∀ {inner inner' : Place}, place ∈ inner.outward → other ∈ inner'.outward → inner.Before inner'

/-- A place for which something holds, before all others for which it does. -/
def IsEarliest (holds : Place → Prop) (place : Place) : Prop :=
  holds place ∧ ∀ other, holds other → other = place ∨ place.Before other

/-- A list has the places of a tree that are reached and for which something holds, in preorder:
each of them once, what lies around a place before it, and what lies in one child before what
lies in a later one. -/
structure ListsInPreorder (root : Node) (holds : Place → Prop) (list : List Place) : Prop where
  mem_iff : ∀ place, place ∈ list ↔ root.Reaches place ∧ holds place
  nodup : list.Nodup
  ordered : list.Pairwise Before
  outerFirst : ∀ outer ∈ list, ∀ inner ∈ list, outer ∈ inner.ancestors →
    [outer, inner].Sublist list
  siblingsInOrder : ∀ around first second, [first, second].Sublist (children around) →
    ∀ inner ∈ list, first ∈ inner.outward → ∀ inner' ∈ list, second ∈ inner'.outward →
      [inner, inner'].Sublist list

variable {root : Node} {place other around part first second inner inner' : Place}
  {list : List Place} {holds : Place → Bool}

/-! ## The order -/

/-- No place comes before itself. -/
theorem not_before_self (place : Place) : ¬ place.Before place := List.lt_irrefl _

/-- A place that comes before another is not that one. -/
theorem Before.ne (before : place.Before other) : place ≠ other := by
  rintro rfl
  exact not_before_self _ before

/-- Of two places only one comes before the other. -/
theorem Before.asymm (before : place.Before other) : ¬ other.Before place := List.lt_asymm before

/-- The way to a place starts with the way to any place around it. -/
theorem exists_way_of_mem_outward (outer : around ∈ place.outward) :
    ∃ further, place.path.reverse = around.path.reverse ++ further := by
  obtain ⟨node, above⟩ := place
  induction above generalizing node with
  | nil =>
    obtain rfl : around = ⟨node, []⟩ := by simpa [outward, ancestors, along] using outer
    exact ⟨[], (List.append_nil _).symm⟩
  | cons step above ih =>
    rcases mem_outward.mp outer with rfl | outer
    · exact ⟨[], (List.append_nil _).symm⟩
    · obtain ⟨further, way⟩ := ih step.parent outer
      refine ⟨further ++ [step.index], ?_⟩
      rw [← List.append_assoc, ← way]
      exact List.reverse_cons

/-- A place comes before all that lies in it. -/
theorem before_of_mem_ancestors (outer : around ∈ place.ancestors) : around.Before place := by
  obtain ⟨further, way⟩ := exists_way_of_mem_outward (mem_outward.mpr (.inr outer))
  have deeper : around.above.length < place.above.length := depth_lt_of_mem_ancestors outer
  have longer := congrArg List.length way
  simp only [path, List.length_reverse, List.length_map, List.length_append] at longer
  cases further with
  | nil =>
    rw [List.length_nil] at longer
    omega
  | cons index further =>
    have shorter := @List.append_left_lt _ _ around.path.reverse _ _ (List.nil_lt_cons index further)
    rwa [List.append_nil, ← way] at shorter

/-- Of two children of a place the one with the smaller number comes wholly before the other. -/
theorem whollyBefore_of_lt {index index' : Nat} {steps : List Step}
    (one : first.path = index :: steps.map Step.index)
    (two : second.path = index' :: steps.map Step.index) (earlier : index < index') :
    first.WhollyBefore second := by
  intro inner inner' inFirst inSecond
  obtain ⟨further, way⟩ := exists_way_of_mem_outward inFirst
  obtain ⟨further', way'⟩ := exists_way_of_mem_outward inSecond
  rw [one, List.reverse_cons, List.append_assoc] at way
  rw [two, List.reverse_cons, List.append_assoc] at way'
  rw [Before, way, way']
  exact List.append_left_lt (List.cons_lt_cons_iff.mpr (.inl earlier))

/-- The children of a place stand in their order. -/
theorem pairwise_children_whollyBefore (place : Place) :
    place.children.Pairwise WhollyBefore := by
  have numbered : ∀ (index : Nat) (nodes : List Node),
      (place.below index nodes).Pairwise WhollyBefore := by
    intro index nodes
    induction nodes generalizing index with
    | nil => exact .nil
    | cons node rest ih =>
      refine .cons (fun child listed => ?_) (ih (index + 1))
      obtain ⟨offset, _, above⟩ := mem_below.mp listed
      exact whollyBefore_of_lt rfl (by rw [path, above]; rfl)
        (Nat.lt_add_right offset (Nat.lt_succ_self index))
  exact numbered 0 place.node.children

/-- A place lies in itself, so what comes wholly before comes before. -/
theorem WhollyBefore.before (wholly : first.WhollyBefore second) : first.Before second :=
  wholly (mem_outward.mpr (.inl rfl)) (mem_outward.mpr (.inl rfl))

/-! ## Lists in order -/

/-- In a list in order an item comes before another exactly if it stands before it. -/
theorem sublist_pair_of_before (ordered : list.Pairwise Before) (mem : first ∈ list)
    (mem' : second ∈ list) (before : first.Before second) : [first, second].Sublist list := by
  induction ordered with
  | nil => contradiction
  | @cons head rest later _ ih =>
    rcases List.mem_cons.mp mem with rfl | inRest
    · rcases List.mem_cons.mp mem' with rfl | inRest'
      · exact absurd before (not_before_self _)
      · exact (List.singleton_sublist.mpr inRest').cons_cons _
    · rcases List.mem_cons.mp mem' with rfl | inRest'
      · exact absurd before (later _ inRest).asymm
      · exact (ih inRest inRest').cons _

/-- A list in order gives its earliest item first. -/
theorem findSome?_eq_some_iff_isEarliest {α : Type} {search : Place → Option α} {result : α}
    (ordered : list.Pairwise Before) :
    list.findSome? search = some result ↔
      ∃ first, IsEarliest (fun other => other ∈ list ∧ (search other).isSome) first ∧
        search first = some result := by
  induction ordered with
  | nil => simp [IsEarliest]
  | @cons head rest later _ ih =>
    rw [List.findSome?_cons]
    cases here : search head with
    | some found =>
      constructor
      · intro same
        refine ⟨head, ⟨⟨List.mem_cons_self, by simp [here]⟩, fun other listed => ?_⟩, here.trans same⟩
        exact (List.mem_cons.mp listed.1).imp_right (later other)
      · rintro ⟨first, ⟨⟨listed, _⟩, earliest⟩, found'⟩
        rcases List.mem_cons.mp listed with rfl | inRest
        · exact here.symm.trans found'
        · rcases earliest head ⟨List.mem_cons_self, by simp [here]⟩ with rfl | before
          · exact here.symm.trans found'
          · exact absurd before (later first inRest).asymm
    | none =>
      rw [ih]
      have inRest {other : Place} (listed : other ∈ head :: rest)
          (found : (search other).isSome = true) : other ∈ rest := by
        rcases List.mem_cons.mp listed with rfl | inRest
        · simp [here] at found
        · exact inRest
      refine exists_congr fun first => and_congr_left fun _ => ?_
      refine and_congr ⟨fun ⟨listed, found⟩ => ⟨.tail _ listed, found⟩,
        fun ⟨listed, found⟩ => ⟨inRest listed found, found⟩⟩ (forall_congr' fun other => ?_)
      exact ⟨fun behind found => behind ⟨inRest found.1 found.2, found.2⟩,
        fun behind found => behind ⟨.tail _ found.1, found.2⟩⟩

/-! ## The traversal of a tree -/

/-- What is listed for a place is the place or stands in it. -/
theorem mem_outward_of_mem_places (listed : other ∈ place.node.places place.above) :
    place ∈ other.outward := by
  induction place using Place.child_induction with
  | step place ih =>
    rw [places_eq_cons, List.mem_cons, List.mem_flatMap] at listed
    rcases listed with rfl | ⟨part, below, listed⟩
    · exact mem_outward.mpr (.inl rfl)
    · have under := mem_children_of_mem_parts below
      exact mem_outward_trans (mem_outward_of_mem_children under) (ih part under listed)

/-- The places of a tree are listed in every order that puts a place before all that stands in it,
and what stands in a part before what stands in a later one. -/
theorem pairwise_places_of {order : Place → Place → Prop} (place : Place)
    (outer : ∀ {outer inner : Place}, outer ∈ inner.ancestors → order outer inner)
    (apart : ∀ around ∈ place.node.places place.above, around.parts.Pairwise fun first second =>
      ∀ one ∈ first.node.places first.above, ∀ two ∈ second.node.places second.above,
        order one two) :
    (place.node.places place.above).Pairwise order := by
  induction place using Place.child_induction with
  | step place ih =>
    have here := apart place place.mem_places_self
    rw [places_eq_cons, List.pairwise_cons, List.pairwise_flatMap]
    refine ⟨fun other listed => ?_, fun part below => ?_, here⟩
    · obtain ⟨part, below, listed⟩ := List.mem_flatMap.mp listed
      have under := parent?_of_mem_children (mem_children_of_mem_parts below)
      exact outer (mem_ancestors_of_outward (mem_ancestors_of_parent? under)
        (mem_outward_of_mem_places listed))
    · exact ih part (mem_children_of_mem_parts below) fun around listed =>
        apart around (mem_places_of_part below listed)

/-- The places of a tree are listed in preorder. -/
theorem pairwise_places_before (place : Place) :
    (place.node.places place.above).Pairwise Before := by
  refine pairwise_places_of place before_of_mem_ancestors fun around _ => ?_
  refine ((pairwise_children_whollyBefore around).filter _).imp fun wholly one among two among' => ?_
  exact wholly (mem_outward_of_mem_places among) (mem_outward_of_mem_places among')

/-- The traversal lists what is reached through parts. -/
theorem mem_places_iff_reaches : place ∈ root.places [] ↔ root.Reaches place := by
  constructor
  · -- The induction is on the place that the traversal starts from.
    have inside : ∀ around : Place, root.Reaches around →
        ∀ other ∈ around.node.places around.above, root.Reaches other := by
      intro around
      induction around using Place.child_induction with
      | step around ih =>
        intro reached other listed
        rw [places_eq_cons, List.mem_cons, List.mem_flatMap] at listed
        rcases listed with rfl | ⟨part, below, listed⟩
        · exact reached
        · exact ih part (mem_children_of_mem_parts below) (.part reached below) other listed
    exact inside (.root root) .root place
  · intro reached
    suffices listed : ∀ other ∈ place.node.places place.above, other ∈ root.places [] from
      listed place place.mem_places_self
    induction reached with
    | root => exact fun other listed => listed
    | part reached below ih => exact fun other listed => ih other (mem_places_of_part below listed)

/-! ## The search with a stack -/

/-- The loop goes through the places of the stack one after another, each as the traversal does:
the parts that take the place of what is taken off are what the traversal goes on with. -/
theorem search_eq (holds : Place → Bool) (stack : List Place) :
    search holds stack =
      stack.flatMap fun place => (place.node.places place.above).filter holds := by
  fun_induction search holds stack with
  | case1 => rfl
  | case2 place stack ih =>
    rw [ih, foldl_push, List.flatMap_append, List.flatMap_cons, places_eq_cons, List.filter_cons,
      List.filter_flatMap, ← List.append_assoc]
    split <;> rfl

/-- The loop that starts at the root is the traversal of the tree. -/
theorem search_root (root : Node) (holds : Place → Bool) :
    search holds [.root root] = (root.places []).filter holds := by
  rw [search_eq, List.flatMap_singleton]
  rfl

/-- The loop lists what is reached from the root in preorder. -/
theorem search_inPreorder (root : Node) (holds : Place → Bool) :
    ListsInPreorder root (fun place => holds place = true) (search holds [.root root]) := by
  rw [search_root]
  have ordered : ((root.places []).filter holds).Pairwise Before :=
    (pairwise_places_before (.root root)).filter _
  exact {
    mem_iff := fun place => by rw [List.mem_filter, mem_places_iff_reaches]
    nodup := ordered.imp Before.ne
    ordered
    outerFirst := fun outer mem inner mem' around =>
      sublist_pair_of_before ordered mem mem' (before_of_mem_ancestors around)
    siblingsInOrder := fun around first second siblings inner mem inFirst inner' mem' inSecond =>
      have wholly : first.WhollyBefore second :=
        List.pairwise_iff_forall_sublist.mp (pairwise_children_whollyBefore around) siblings
      sublist_pair_of_before ordered mem mem' (wholly inFirst inSecond) }

end Place

end CaretName
