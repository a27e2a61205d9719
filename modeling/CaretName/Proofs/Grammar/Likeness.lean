import Mathlib.Data.List.Forall2
import CaretName.Proofs.Grammar.WellFormed

/-!
# Reading alike

The reader looks at the sorts and texts of tokens, and at nothing else in front of the end of a
source. So from tokens that are alike it makes nodes that are alike, or gets stuck at the same
place. What alike means is open here: a `Likeness` is any relation that the steps of the reader
keep. `Likeness.file` says what comes of it for whole files.
-/
namespace CaretName

/-- Which nodes and which tokens count as alike. -/
structure Likeness where
  nodes : List Node → List Node → Prop
  token : Token → Token → Prop
  nil : nodes [] []
  append {first first' second second' : List Node} :
    nodes first first' → nodes second second' → nodes (first ++ second) (first' ++ second')
  inRole {some other : List Node} (role : Role) :
    nodes some other → nodes (CaretName.inRole role some) (CaretName.inRole role other)
  enclose {some other : List Node} (construct : Construct) :
    nodes some other → nodes (CaretName.enclose construct some) (CaretName.enclose construct other)
  leading {some other : List Node} :
    nodes some other → leadingConstruct? some = leadingConstruct? other
  sort {one other : Token} : token one other → one.sort = other.sort
  text {one other : Token} : token one other → one.text = other.text
  index {one other : Token} : token one other → one.index = other.index
  made {one other : Token} (kind : Kind) :
    token one other → nodes (one.nodes kind) (other.nodes kind)
  split {one other : Token} : token one other →
    Option.Rel (fun parts parts' => token parts.1 parts'.1 ∧ List.Forall₂ token parts.2 parts'.2)
      one.splitClosing? other.splitClosing?

namespace Likeness

variable {like : Likeness} {nodes nodes' : List Node} {token token' : Token}

/-- Tokens that are alike spell the same. -/
theorem spells_eq (same : like.token token token') : token.spells = token'.spells := by
  funext spelling
  simp only [Token.spells, like.sort same, like.text same]

/-- Tokens that are alike are names alike. -/
theorem isName_eq (same : like.token token token') (reserved : List String) :
    token.isName reserved = token'.isName reserved := by
  simp only [Token.isName, like.sort same, like.text same]

/-- Nodes that are alike grow alike. -/
theorem apply {ρ : Type} (growth : Growth ρ) {tail tail' : List Node}
    (same : like.nodes nodes nodes') (behind : like.nodes tail tail') :
    like.nodes (growth.apply nodes tail) (growth.apply nodes' tail') := by
  refine like.enclose growth.construct (like.append ?_ behind)
  cases growth.role with
  | none => exact same
  | some role => exact like.inRole role same

end Likeness

/-! ## Readings -/

/-- Two readings that are alike. -/
inductive Reading.Alike (like : Likeness) : Reading → Reading → Prop
  | done {nodes nodes' : List Node} {rest rest' : List Token} {reach : Nat}
    (made : like.nodes nodes nodes') (left : List.Forall₂ like.token rest rest') :
    Alike like (.done nodes rest reach) (.done nodes' rest' reach)
  | stuck {reach : Nat} : Alike like (.stuck reach) (.stuck reach)

variable {like : Likeness} {nodes nodes' : List Node}

namespace Reading

variable {ρ : Type} {reading reading' : Reading} {tokens tokens' : List Token}

/-- Readings stay alike when the same token was looked at in vain before. -/
theorem Alike.having (alike : Alike like reading reading') (reach : Nat) :
    Alike like (reading.having reach) (reading'.having reach) := by
  cases alike with
  | done nodes rest => exact .done nodes rest
  | stuck => exact .stuck

/-- Readings stay alike behind nodes that are. -/
theorem Alike.after (alike : Alike like reading reading') (same : like.nodes nodes nodes') :
    Alike like (reading.after nodes) (reading'.after nodes') := by
  cases alike with
  | done more rest => exact .done (like.append same more) rest
  | stuck => exact .stuck

/-- Readings stay alike when their nodes are changed alike. -/
theorem Alike.map (alike : Alike like reading reading') {change : List Node → List Node}
    (keeps : ∀ ⦃nodes nodes'⦄, like.nodes nodes nodes' → like.nodes (change nodes) (change nodes')) :
    Alike like (reading.map change) (reading'.map change) := by
  cases alike with
  | done nodes rest => exact .done (keeps nodes) rest
  | stuck => exact .stuck

/-- Rules read in turn read alike if each of them does. -/
theorem alike_inTurn {read : ρ → List Token → Reading} {rules : List ρ}
    (each : ∀ rule ∈ rules, ∀ ⦃tokens tokens'⦄, List.Forall₂ like.token tokens tokens' →
      Alike like (read rule tokens) (read rule tokens'))
    (same : List.Forall₂ like.token tokens tokens') :
    Alike like (inTurn read rules tokens) (inTurn read rules tokens') := by
  induction rules generalizing tokens tokens' with
  | nil => exact .done like.nil same
  | cons rule rules ih =>
    obtain ⟨one, others⟩ := List.forall_mem_cons.mp each
    have first := one same
    rw [inTurn, inTurn]
    generalize read rule tokens = reading, read rule tokens' = reading' at first
    cases first with
    | done nodes rest => exact ((ih others rest).after nodes).having _
    | stuck => exact .stuck

/-- The first rule that fits reads alike if all rules do. -/
theorem alike_byFirst {read read' : ρ → Reading} {rules : List ρ}
    (each : ∀ rule ∈ rules, Alike like (read rule) (read' rule)) :
    Alike like (byFirst read rules) (byFirst read' rules) := by
  induction rules with
  | nil => exact .stuck
  | cons rule rules ih =>
    obtain ⟨first, others⟩ := List.forall_mem_cons.mp each
    rw [byFirst, byFirst]
    generalize read rule = reading, read' rule = reading' at first
    cases first with
    | done nodes rest => exact .done nodes rest
    | stuck => exact (ih others).having _

end Reading

/-- The first growth that fits makes larger nodes that are alike if all tails are read alike. -/
theorem Growth.alike_byFirst {ρ : Type} {read read' : ρ → Reading} {growths : List (Growth ρ)}
    (each : ∀ growth ∈ growths, (read growth.tail).Alike like (read' growth.tail))
    (construct : Construct) (same : like.nodes nodes nodes') :
    (byFirst read construct nodes growths).Alike like (byFirst read' construct nodes' growths) := by
  induction growths with
  | nil => exact .stuck
  | cons growth growths ih =>
    obtain ⟨tail, others⟩ := List.forall_mem_cons.mp each
    rw [byFirst, byFirst]
    split
    · generalize read growth.tail = reading, read' growth.tail = reading' at tail
      cases tail with
      | done behind rest => exact .done (like.apply growth same behind) rest
      | stuck => exact (ih others).having _
    · exact ih others

/-! ## Rules -/

namespace Rule

variable {π : Type} {grammar : π → Rule π} {fuel : Nat}

/-- With some fuel the reader reads alike what is alike, in front of the end of a source. -/
def ReadAlike (like : Likeness) (grammar : π → Rule π) (fuel : Nat) : Prop :=
  ∀ rule : Rule π, rule.Endless → ∀ ⦃tokens tokens'⦄, List.Forall₂ like.token tokens tokens' →
    (read grammar fuel rule tokens).Alike like (read grammar fuel rule tokens')

/-- With some fuel the loop that lets a node grow goes alike for what is alike. -/
def GrownAlike (like : Likeness) (grammar : π → Rule π) (fuel : Nat) : Prop :=
  ∀ growths : List (Growth (Rule π)), (∀ growth ∈ growths, growth.tail.Endless) →
    ∀ ⦃nodes nodes' tokens tokens'⦄, like.nodes nodes nodes' →
      List.Forall₂ like.token tokens tokens' →
      (grown grammar fuel growths nodes tokens).Alike like
        (grown grammar fuel growths nodes' tokens')

/-- One step of the reader: every form of rule reads alike. -/
theorem readAlike_succ (endless : ∀ which, (grammar which).Endless)
    (reads : ReadAlike like grammar fuel) (grows : GrownAlike like grammar fuel) :
    ReadAlike like grammar (fuel + 1) := by
  intro rule here tokens tokens' same
  cases same with
  | nil => exact .stuck
  | @cons token token' rest rest' first behind =>
    have same : List.Forall₂ like.token (token :: rest) (token' :: rest') := .cons first behind
    -- Tokens keep their index, so readings that get stuck have looked equally far.
    have index := like.index first
    cases rule with
    | text spelling =>
      rw [read, read, like.spells_eq first, index]
      split
      · exact .done (like.made _ first) behind
      · exact .stuck
    | leaf construct spelling =>
      rw [read, read, like.spells_eq first, index]
      split
      · exact .done (like.made _ first) behind
      · exact .stuck
    | name construct reserved =>
      rw [read, read, like.isName_eq first, index]
      split
      · exact .done (like.made _ first) behind
      · exact .stuck
    | closing =>
      have split := like.split first
      rw [read, read]
      generalize token.splitClosing? = parts, token'.splitClosing? = parts' at split
      cases split with
      | some halves => exact .done (like.made _ halves.1) (List.rel_append halves.2 behind)
      | none => exact index ▸ .stuck
    | literal construct =>
      rw [read, read, like.sort first, index]
      split
      · exact .done (like.made _ first) behind
      · exact .stuck
    | finish => exact absurd rfl (here _ mem_within_self)
    | part which =>
      rw [read, read]
      exact reads _ (endless which) same
    | seq rules =>
      rw [read, read]
      exact Reading.alike_inTurn (fun rule inside => reads rule (endless_seq.mp here rule inside))
        same
    | choice rules =>
      rw [read, read]
      exact Reading.alike_byFirst fun rule inside =>
        reads rule (endless_choice.mp here rule inside) same
    | many rule =>
      have once := reads rule (endless_many.mp here) same
      rw [read, read]
      generalize read grammar fuel rule (token :: rest) = reading,
        read grammar fuel rule (token' :: rest') = reading' at once
      cases once with
      | done nodes left => exact ((reads _ here left).after nodes).having _
      | stuck => exact .done like.nil same
    | ahead texts =>
      rw [read, read, like.spells_eq first, index]
      split
      · exact .done like.nil same
      · exact .stuck
    | node construct rule =>
      rw [read, read]
      exact (reads rule (endless_node.mp here) same).map fun _ _ => like.enclose construct
    | field role rule =>
      rw [read, read]
      exact (reads rule (endless_field.mp here) same).map fun _ _ => like.inRole role
    | only constructs rule =>
      have body := reads rule (endless_only.mp here) same
      rw [read, read]
      generalize read grammar fuel rule (token :: rest) = reading,
        read grammar fuel rule (token' :: rest') = reading' at body
      cases body with
      | done nodes left =>
        dsimp only
        rw [like.leading nodes, index]
        split
        · exact .done nodes left
        · exact .stuck
      | stuck => exact .stuck
    | grow seed growths =>
      obtain ⟨endlessSeed, endlessTails⟩ := endless_grow.mp here
      have body := reads seed endlessSeed same
      rw [read, read]
      generalize read grammar fuel seed (token :: rest) = reading,
        read grammar fuel seed (token' :: rest') = reading' at body
      cases body with
      | done nodes left => exact (grows growths endlessTails nodes left).having _
      | stuck => exact .stuck

/-- One step of the loop: nodes that are alike grow alike, or both stay as they are. -/
theorem grownAlike_succ (reads : ReadAlike like grammar fuel) (grows : GrownAlike like grammar fuel) :
    GrownAlike like grammar (fuel + 1) := by
  intro growths here nodes nodes' tokens tokens' same behind
  rw [grown, grown, like.leading same]
  cases leadingConstruct? nodes' with
  | none => exact .done same behind
  | some construct =>
    have step : (Growth.byFirst (fun rule => read grammar fuel rule tokens) construct nodes
        growths).Alike like
          (Growth.byFirst (fun rule => read grammar fuel rule tokens') construct nodes' growths) :=
      Growth.alike_byFirst (fun growth inside => reads growth.tail (here growth inside) behind)
        construct same
    dsimp only
    generalize Growth.byFirst _ construct nodes growths = reading,
      Growth.byFirst _ construct nodes' growths = reading' at step
    cases step with
    | done larger left => exact (grows growths here larger left).having _
    | stuck => exact .done same behind

/-- The reader and the loop go alike together. Induction on the fuel that they share. -/
theorem readAlike_and_grownAlike (endless : ∀ which, (grammar which).Endless) (fuel : Nat) :
    ReadAlike like grammar fuel ∧ GrownAlike like grammar fuel := by
  induction fuel with
  | zero =>
    constructor
    · intro rule _ tokens tokens' same
      cases tokens <;> cases tokens' <;> exact .stuck
    · intro growths _ nodes nodes' tokens tokens' same behind
      exact .done same behind
  | succ fuel ih =>
    obtain ⟨reads, grows⟩ := ih
    exact ⟨readAlike_succ endless reads grows, grownAlike_succ reads grows⟩

end Rule

/-! ## Files -/

namespace Likeness

open Grammar

variable {tokens tokens' : List Token}

/-- The end of a source is found in tokens that are alike. -/
theorem finish {fuel : Nat} (same : List.Forall₂ like.token tokens tokens') {comments : List Node}
    {rest : List Token} {reach : Nat}
    (done : Rule.read rules fuel .finish tokens = .done comments rest reach) :
    ∃ last last', comments = last.before ∧ like.token last last' ∧
      Rule.read rules fuel .finish tokens' = .done last'.before [last'] reach := by
  cases fuel with
  | zero => cases tokens <;> contradiction
  | succ fuel =>
    cases same with
    | nil => contradiction
    | @cons last last' _ _ first _ =>
      rw [Rule.read] at done ⊢
      obtain ⟨sort, read⟩ := Reading.of_ite_eq_done done
      obtain ⟨rfl, _, rfl⟩ := Reading.done.inj read
      rw [like.sort first] at sort
      exact ⟨last, last', rfl, first, by rw [if_pos sort]⟩

/-- A file that is read comes to nodes and the comments in front of the end. Every file of tokens
that are alike is read, and its nodes are alike. -/
theorem file (same : List.Forall₂ like.token tokens tokens') {all : List Node}
    {rest : List Token} {reach : Nat} (done : readFile tokens = .done all rest reach) :
    ∃ nodes nodes' last last', all = nodes ++ last.before ∧
      (∃ reach', readFile tokens' = .done (nodes' ++ last'.before) [last'] reach') ∧
      like.nodes nodes nodes' ∧ like.token last last' := by
  obtain ⟨fuel, enough⟩ : ∃ fuel, fuelFor tokens.length = fuel + 1 :=
    ⟨fuelFor tokens.length - 1, by rw [fuelFor]; omega⟩
  have length := same.length_eq
  cases same with
  | nil => contradiction
  | cons first behind =>
    have items := (Rule.readAlike_and_grownAlike endless_rules fuel).1 _ endless_declared
      (List.Forall₂.cons first behind)
    rw [readFile, readBy, ← length, enough, Rule.read, Reading.inTurn]
    rw [readFile, readBy, enough, Rule.read, Reading.inTurn] at done
    generalize Rule.read rules fuel (.many (.part .topLevel)) _ = reading at items done
    generalize Rule.read rules fuel (.many (.part .topLevel)) _ = reading' at items ⊢
    cases items with
    | stuck => contradiction
    | done made left =>
      obtain ⟨_, done⟩ := Reading.having_eq_done done
      obtain ⟨more, later, rfl⟩ := Reading.after_eq_done done
      rw [Reading.inTurn] at later
      split at later
      · next found =>
        obtain ⟨last, last', rfl, ends, found'⟩ := finish left found
        obtain ⟨_, done⟩ := Reading.having_eq_done later
        obtain ⟨none, nothing, rfl⟩ := Reading.after_eq_done done
        obtain ⟨rfl, _, _⟩ := Reading.done.inj nothing
        refine ⟨_, _, last, last', by rw [List.append_nil], ?_, made, ends⟩
        simp only [found', Reading.inTurn, Reading.after, Reading.having, List.append_nil]
        exact ⟨_, rfl⟩
      · contradiction

end Likeness

end CaretName
