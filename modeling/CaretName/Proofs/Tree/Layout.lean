import CaretName.Proofs.Tree.Holds

/-!
# Trees laid out in order

In a tree that was read from a source the children of a node stand in order, apart from each
other and within the node. In such a tree the search for the smallest place around a range of
bytes is exact: it descends through every place that holds the range, so a range within a token
finds that token.
-/
namespace CaretName

/-- Nodes lie in order from one byte to another, and the children of each lie within it. -/
inductive Node.Lie : Nat → List Node → Nat → Prop
  /-- No nodes lie between any two bytes in order. -/
  | nil {start stop : Nat} (ordered : start ≤ stop) : Node.Lie start [] stop
  /-- A node lies after the first byte, and the others after it. -/
  | cons {start stop : Nat} {node : Node} {rest : List Node} (after : start ≤ node.start)
    (inside : Node.Lie node.start node.children node.stop)
    (later : Node.Lie node.stop rest stop) : Node.Lie start (node :: rest) stop

/-- The children of a node lie in order within it, and so do theirs. -/
def Node.Laid (node : Node) : Prop := Node.Lie node.start node.children node.stop

namespace Node

variable {start middle stop : Nat} {node : Node} {nodes more : List Node}

/-- Nodes in order lie between bytes in order. -/
theorem Lie.le (lie : Lie start nodes stop) : start ≤ stop := by
  induction lie with
  | nil ordered => exact ordered
  | cons after inside later ihInside ihLater => omega

/-- Nodes may be given more room. -/
theorem Lie.widen (lie : Lie start nodes stop) {first last : Nat} (before : first ≤ start)
    (after : stop ≤ last) : Lie first nodes last := by
  induction lie generalizing first with
  | nil ordered => exact .nil (by omega)
  | cons later inside rest ihInside ihRest =>
    exact .cons (by omega) inside (ihRest (Nat.le_refl _) after)

/-- Nodes after nodes lie in order when one ends before the other starts. -/
theorem Lie.append (first : Lie start nodes middle) (second : Lie middle more stop) :
    Lie start (nodes ++ more) stop := by
  induction first with
  | nil ordered => exact second.widen ordered (Nat.le_refl _)
  | cons after inside later ihInside ihLater => exact .cons after inside (ihLater second)

/-- Nodes in order can be parted anywhere. -/
theorem Lie.of_append (lie : Lie start (nodes ++ more) stop) :
    ∃ middle, Lie start nodes middle ∧ Lie middle more stop := by
  induction nodes generalizing start with
  | nil => exact ⟨start, .nil (Nat.le_refl _), lie⟩
  | cons node rest ih =>
    cases lie with
    | cons after inside later =>
      obtain ⟨middle, first, second⟩ := ih later
      exact ⟨middle, .cons after inside first, second⟩

/-- Some of several nodes in order are in order. -/
theorem Lie.sublist (lie : Lie start nodes stop) (fewer : more.Sublist nodes) :
    Lie start more stop := by
  induction lie generalizing more with
  | nil ordered =>
    cases fewer
    exact .nil ordered
  | cons after inside later ihInside ihLater =>
    have width := inside.le
    cases fewer with
    | cons _ rest => exact (ihLater rest).widen (by omega) (Nat.le_refl _)
    | cons_cons _ rest => exact .cons after inside (ihLater rest)

/-- Each of several nodes in order lies within their bounds and is laid out. -/
theorem Lie.mem (lie : Lie start nodes stop) (found : node ∈ nodes) :
    start ≤ node.start ∧ node.stop ≤ stop ∧ node.Laid := by
  induction lie with
  | nil => contradiction
  | @cons start stop first rest after inside later ihInside ihLater =>
    rcases List.mem_cons.mp found with rfl | found
    · exact ⟨after, later.le, inside⟩
    · have bounds := ihLater found
      have width := Lie.le inside
      exact ⟨by omega, bounds.2⟩

/-- Of several nodes in order one that starts before another ends before it. -/
theorem Lie.stop_le (lie : Lie start nodes stop) {first second : Node} (one : first ∈ nodes)
    (two : second ∈ nodes) (before : first.start < second.start) : first.stop ≤ second.start := by
  induction lie with
  | nil => contradiction
  | @cons start stop node rest after inside later ihInside ihLater =>
    have width := inside.le
    rcases List.mem_cons.mp one with rfl | one'
    · rcases List.mem_cons.mp two with rfl | two'
      · exact absurd before (Nat.lt_irrefl _)
      · exact (later.mem two').1
    · rcases List.mem_cons.mp two with rfl | two'
      · have behind := (later.mem one').1
        omega
      · exact ihLater one' two'

/-- Every place of a laid out tree is laid out. -/
theorem Holds.laid {root : Node} {place : Place} (held : root.Holds place) (laid : root.Laid) :
    place.node.Laid := by
  induction held with
  | root => exact laid
  | child held below ih => exact (Lie.mem ih (Place.node_mem_of_mem_children below)).2.2

/-- A child of a laid out place lies within it. -/
theorem Laid.child_within {place child : Place} (laid : place.node.Laid)
    (below : child ∈ place.children) : place.start ≤ child.start ∧ child.stop ≤ place.stop := by
  have bounds := Lie.mem laid (Place.node_mem_of_mem_children below)
  exact ⟨bounds.1, bounds.2.1⟩

/-- Every place of a laid out tree lies within the tree. -/
theorem Holds.within {root : Node} {place : Place} (held : root.Holds place)
    (laid : root.Laid) : root.start ≤ place.start ∧ place.stop ≤ root.stop := by
  induction held with
  | root => exact ⟨Nat.le_refl _, Nat.le_refl _⟩
  | child held below ih =>
    have inside := (held.laid laid).child_within below
    omega

/-- Every place of a laid out tree lies within the places around it. -/
theorem Holds.within_outward {root : Node} {place around : Place} (held : root.Holds place)
    (laid : root.Laid) (outer : around ∈ place.outward) :
    around.start ≤ place.start ∧ place.stop ≤ around.stop := by
  induction held with
  | root =>
    obtain rfl : around = .root root := by
      simpa [Place.root, Place.outward, Place.ancestors, Place.along] using outer
    exact ⟨Nat.le_refl _, Nat.le_refl _⟩
  | child held below ih =>
    rcases Place.mem_outward.mp outer with rfl | further
    · exact ⟨Nat.le_refl _, Nat.le_refl _⟩
    · have inside := (held.laid laid).child_within below
      have wider := ih (Place.ancestors_of_mem_children below ▸ further)
      omega

/-! ## The smallest place around a range of bytes -/

/-- Among children the search stays at the place around them or goes on in one of them. -/
theorem narrowAmong_cases (range : Span) (around : Place) (index : Nat) (nodes : List Node) :
    narrowAmong range around index nodes = around ∨ ∃ child ∈ around.below index nodes,
      narrowAmong range around index nodes = child.node.narrow range child.above := by
  induction nodes generalizing index with
  | nil => exact .inl rfl
  | cons node rest ih =>
    rw [narrowAmong, Place.below]
    by_cases reaches : node.reaches range = true
    · rw [if_pos reaches]
      by_cases before : range.start < node.start
      · exact .inl (if_pos before)
      · rw [if_neg before]
        exact .inr ⟨_, List.mem_cons_self, rfl⟩
    · rw [if_neg reaches]
      rcases ih (index + 1) with same | ⟨child, below, same⟩
      · exact .inl same
      · exact .inr ⟨child, List.mem_cons_of_mem _ below, same⟩

/-- The search ends at a place of the tree. -/
theorem Holds.narrow {root : Node} {place : Place} (held : root.Holds place) (range : Span) :
    root.Holds (place.node.narrow range place.above) := by
  induction place using Place.child_induction with
  | step place ih =>
    obtain ⟨node, above⟩ := place
    cases node with
    | leaf => exact held
    | branch kind role span children =>
      rw [Node.narrow]
      rcases narrowAmong_cases range ⟨.branch kind role span children, above⟩ 0 children with
        same | ⟨child, below, same⟩
      · rw [same]
        exact held
      · rw [same]
        exact ih child below (held.child below)

/-- Among children in order the search takes the one that holds the range: those before it end
too early to reach the end of the range. -/
theorem narrowAmong_eq (lie : Lie start nodes stop) (around : Place) (index offset : Nat)
    {first last : Nat} (found : nodes[offset]? = some node) (begins : node.start ≤ first)
    (wide : first < last) (ends : last ≤ node.stop) :
    narrowAmong ⟨first, last⟩ around index nodes =
      node.narrow ⟨first, last⟩ (⟨around.node, index + offset⟩ :: around.above) := by
  induction lie generalizing index offset with
  | nil => simp at found
  | @cons start stop head rest after inside later ihInside ihLater =>
    cases offset with
    | zero =>
      obtain rfl : head = node := by simpa using found
      have reaches : head.reaches ⟨first, last⟩ = true := by
        simp only [reaches, Bool.and_eq_true, decide_eq_true_eq, beq_iff_eq]
        refine ⟨ends, ?_⟩
        rw [if_neg (by omega)]
        simp only [decide_eq_true_eq]
        omega
      simp [narrowAmong, reaches, Nat.not_lt.mpr begins]
    | succ offset =>
      have found : rest[offset]? = some node := by simpa using found
      have passed := (Lie.mem later (List.mem_of_getElem? found)).1
      have short : head.reaches ⟨first, last⟩ = false := by
        simp only [reaches, Bool.and_eq_false_iff, decide_eq_false_iff_not]
        exact .inl (by omega)
      simp only [narrowAmong, short, Bool.false_eq_true, ↓reduceIte]
      rw [ihLater (index + 1) offset found, Nat.add_right_comm, Nat.add_assoc index]

/-- The search goes on inside every place that holds the range. -/
theorem Holds.placeAt_eq {root : Node} {place : Place} (held : root.Holds place)
    (laid : root.Laid) {first last : Nat} (begins : place.start ≤ first) (wide : first < last)
    (ends : last ≤ place.stop) :
    root.placeAt ⟨first, last⟩ = place.node.narrow ⟨first, last⟩ place.above := by
  induction held with
  | root => rfl
  | @child around place held below ih =>
    have inside := (held.laid laid).child_within below
    rw [ih (by omega) (by omega)]
    obtain ⟨index, found, above⟩ := Place.mem_children.mp below
    have step := narrowAmong_eq (held.laid laid) around 0 index found begins wide ends
    rw [Nat.zero_add] at step
    obtain ⟨node, steps⟩ := around
    cases node with
    | leaf => simp [Node.children] at found
    | branch => rw [above]; exact step

/-- A node without children is the smallest place inside itself. -/
theorem narrow_of_childless {place : Place} (childless : place.node.children = [])
    (range : Span) : place.node.narrow range place.above = place := by
  obtain ⟨node, above⟩ := place
  cases node with
  | leaf => rfl
  | branch kind role span children =>
    obtain rfl : children = [] := childless
    rfl

/-- A range of bytes within a token finds the token. -/
theorem Holds.placeAt_token {root : Node} {place : Place} (held : root.Holds place)
    (laid : root.Laid) (childless : place.node.children = []) {first last : Nat}
    (begins : place.start ≤ first) (wide : first < last) (ends : last ≤ place.stop) :
    root.placeAt ⟨first, last⟩ = place := by
  rw [held.placeAt_eq laid begins wide ends, narrow_of_childless childless]

end Node

end CaretName
