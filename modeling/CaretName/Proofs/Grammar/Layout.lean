import CaretName.Proofs.Grammar.Shape

/-!
# Where derived nodes lie

Tokens that lie in order become nodes that do: no rule changes the order of what it reads, and
a construct reaches from its first token to its last. So a tree that a grammar derives is laid
out, and a caret on a token finds it.
-/
namespace CaretName

variable {π : Type} {grammar : π → Rule π}

namespace Node

variable {start stop : Nat} {nodes : List Node}

/-- Nodes lie where they lie in any role. -/
theorem Lie.inRole (lie : Lie start nodes stop) (role : Role) :
    Lie start (inRole role nodes) stop := by
  induction lie with
  | nil ordered => exact .nil ordered
  | cons after inside later ihInside ihLater =>
    rw [CaretName.inRole, List.map_cons]
    split
    · exact .cons after inside ihLater
    · exact .cons (by simpa) (by simpa using inside) (by rw [stop_withRole]; exact ihLater)

/-- Nodes reach from the first byte of the first to the last byte of the last. -/
theorem Lie.trim (lie : Lie start nodes stop) {first last : Node}
    (front : nodes.head? = some first) (back : nodes.getLast? = some last) :
    start ≤ first.start ∧ Lie first.start nodes last.stop ∧ last.stop ≤ stop := by
  induction lie generalizing first with
  | nil ordered => simp at front
  | @cons start stop node rest after inside later ihInside ihLater =>
    obtain rfl : node = first := by simpa using front
    cases rest with
    | nil =>
      obtain rfl : node = last := by simpa using back
      exact ⟨after, .cons (Nat.le_refl _) inside (.nil (Nat.le_refl _)), later.le⟩
    | cons next rest =>
      obtain ⟨gap, trimmed, room⟩ := ihLater rfl (by simpa using back)
      exact ⟨after, .cons (Nat.le_refl _) inside (trimmed.widen gap (Nat.le_refl _)), room⟩

/-- What nodes are enclosed in lies where they lie. -/
theorem Lie.enclose (lie : Lie start nodes stop) (construct : Construct) :
    ∃ last, last ≤ stop ∧ Lie start (enclose construct nodes) last := by
  rw [← List.takeWhile_append_dropWhile (p := isExtra) (l := nodes)] at lie
  obtain ⟨middle, outside, inside⟩ := lie.of_append
  rcases enclose_eq construct nodes with ⟨_, equal⟩ | ⟨first, last, front, back, equal⟩
  · exact ⟨middle, inside.le, equal ▸ outside⟩
  · obtain ⟨gap, trimmed, room⟩ := inside.trim front back
    refine ⟨last.stop, room, ?_⟩
    rw [equal]
    exact outside.append (.cons gap trimmed (.nil (Nat.le_refl _)))

end Node

/-- The comments before a token and its leaf lie in order. -/
theorem Token.Lie.nodes {start stop : Nat} {token : Token} {rest : List Token}
    (lie : Token.Lie start (token :: rest) stop) (kind : Kind) :
    Node.Lie start (token.nodes kind) token.span.stop ∧ Token.Lie token.span.stop rest stop := by
  cases lie with
  | cons comments after width later =>
    exact ⟨comments.append (.cons after (.nil width) (.nil (Nat.le_refl _))), later⟩

/-- Tokens may start earlier. -/
theorem Token.Lie.widen {first start stop : Nat} {tokens : List Token}
    (lie : Token.Lie start tokens stop) (before : first ≤ start) :
    Token.Lie first tokens stop := by
  cases lie with
  | nil ordered => exact .nil (by omega)
  | cons comments after width later =>
    exact .cons (comments.widen before (Nat.le_refl _)) after width later

namespace Rule

variable {rule : Rule π} {tokens rest : List Token} {nodes : List Node} {start stop : Nat}

/-- Whether a rule asks for the end of a source nowhere. -/
def Endless (rule : Rule π) : Prop := ∀ inner ∈ rule.within, inner ≠ .finish

/-- Nothing within several rules asks for the end of a source if each of them is endless. -/
theorem endless_withinAll {rules : List (Rule π)} :
    (∀ inner ∈ withinAll rules, inner ≠ .finish) ↔ ∀ rule ∈ rules, rule.Endless := by
  simp only [Endless, mem_withinAll]
  constructor
  · intro here rule inside inner listed
    exact here inner ⟨rule, inside, listed⟩
  · rintro each inner ⟨rule, inside, listed⟩
    exact each rule inside inner listed

/-- A sequence is endless if each of its rules is. -/
theorem endless_seq {rules : List (Rule π)} :
    (seq rules).Endless ↔ ∀ rule ∈ rules, rule.Endless := by
  rw [← endless_withinAll]
  simp [Endless, within]

/-- A choice is endless if each of its rules is. -/
theorem endless_choice {rules : List (Rule π)} :
    (choice rules).Endless ↔ ∀ rule ∈ rules, rule.Endless := by
  rw [← endless_withinAll]
  simp [Endless, within]

/-- Reading again and again is endless if reading once is. -/
theorem endless_many : (many rule).Endless ↔ rule.Endless := by simp [Endless, within]

/-- A construct is endless if its rule is. -/
theorem endless_node {construct : Construct} : (node construct rule).Endless ↔ rule.Endless := by
  simp [Endless, within]

/-- A role does not matter for that. -/
theorem endless_field {role : Role} : (field role rule).Endless ↔ rule.Endless := by
  simp [Endless, within]

/-- Nor does a condition. -/
theorem endless_only {constructs : List Construct} :
    (only constructs rule).Endless ↔ rule.Endless := by
  simp [Endless, within]

/-- What grows is endless if the seed and all tails are. -/
theorem endless_grow {seed : Rule π} {growths : List (Growth (Rule π))} :
    (grow seed growths).Endless ↔
      seed.Endless ∧ ∀ growth ∈ growths, growth.tail.Endless := by
  simp only [Endless, within, List.forall_mem_cons, List.forall_mem_append, mem_withinGrowths]
  constructor
  · intro here
    refine ⟨here.2.1, fun growth inside inner listed => ?_⟩
    exact here.2.2 inner ⟨growth, inside, listed⟩
  · intro each
    refine ⟨by simp, each.1, ?_⟩
    rintro inner ⟨growth, inside, listed⟩
    exact each.2 growth inside inner listed

/-- The nodes of a derivation lie where their tokens did, in front of those left. -/
theorem Reads.lie (endless : ∀ which, (grammar which).Endless)
    (reads : Reads grammar rule tokens nodes rest) (sound : ∀ token ∈ tokens, token.Sound)
    (here : rule.Endless) (lie : Token.Lie start tokens stop) :
    ∃ middle, Node.Lie start nodes middle ∧ Token.Lie middle rest stop := by
  induction reads generalizing start with
  | text | leaf | name | literal => exact ⟨_, lie.nodes _⟩
  | closing split =>
    exact ⟨_, (lie.of_splitClosing? (sound _ List.mem_cons_self) split).nodes _⟩
  | finish => exact absurd rfl (here _ mem_within_self)
  | seqNil | manyNil | ahead => exact ⟨start, .nil (Nat.le_refl _), lie⟩
  | part body ih => exact ih sound (endless _) lie
  | seqCons first later ihFirst ihLater =>
    obtain ⟨one, others⟩ := List.forall_mem_cons.mp (endless_seq.mp here)
    obtain ⟨middle, front, left⟩ := ihFirst sound one lie
    obtain ⟨last, back, left⟩ := ihLater (first.sound_rest sound) (endless_seq.mpr others) left
    exact ⟨last, front.append back, left⟩
  | choice chosen body ih => exact ih sound (endless_choice.mp here _ chosen) lie
  | manyCons first later ihFirst ihLater =>
    obtain ⟨middle, front, left⟩ := ihFirst sound (endless_many.mp here) lie
    obtain ⟨last, back, left⟩ := ihLater (first.sound_rest sound) here left
    exact ⟨last, front.append back, left⟩
  | node body ih =>
    obtain ⟨middle, inner, left⟩ := ih sound (endless_node.mp here) lie
    obtain ⟨last, room, around⟩ := inner.enclose _
    exact ⟨last, around, left.widen room⟩
  | field body ih =>
    obtain ⟨middle, inner, left⟩ := ih sound (endless_field.mp here) lie
    exact ⟨middle, inner.inRole _, left⟩
  | only body leading ih => exact ih sound (endless_only.mp here) lie
  | seed body ih => exact ih sound (endless_grow.mp here).1 lie
  | @growth seed growths growth _ _ _ _ nodes tail base applies leading onto later ihBase ihLater =>
    obtain ⟨middle, front, left⟩ := ihBase sound here lie
    obtain ⟨last, back, left⟩ :=
      ihLater (base.sound_rest sound) ((endless_grow.mp here).2 growth applies) left
    have joined : ∃ last', last' ≤ last ∧ Node.Lie start (growth.apply nodes tail) last' := by
      refine Node.Lie.enclose (Node.Lie.append ?_ back) growth.construct
      cases growth.role with
      | none => exact front
      | some role => exact front.inRole role
    obtain ⟨end_, room, around⟩ := joined
    exact ⟨end_, around, left.widen room⟩

end Rule

end CaretName
