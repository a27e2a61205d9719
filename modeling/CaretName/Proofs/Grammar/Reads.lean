import CaretName.Grammar.Rule

/-!
# What a grammar derives

`Rule.Reads` is the meaning of a rule without the strategy of the reader: it has no fuel, it
does not prefer the first alternative of a choice, and it may stop repeating at any point.
`Rule.read_sound` says that the reader returns only what its rule derives. Properties of the
nodes that a grammar makes are therefore proved by induction on derivations, and the reader is
not looked into again.
-/
namespace CaretName

/-! ## Readings -/

namespace Reading

variable {ρ : Type} {reading : Reading} {nodes : List Node} {rest : List Token} {reach : Nat}

/-- Having looked further changes neither the nodes nor what is left. -/
theorem having_eq_done {looked : Nat} (done : reading.having looked = .done nodes rest reach) :
    ∃ reached, reading = .done nodes rest reached := by
  cases reading with
  | done =>
    rw [having] at done
    obtain ⟨rfl, rfl, _⟩ := Reading.done.inj done
    exact ⟨_, rfl⟩
  | stuck => simp [having] at done

/-- Nodes read before stand in front. -/
theorem after_eq_done {before : List Node} (done : reading.after before = .done nodes rest reach) :
    ∃ more, reading = .done more rest reach ∧ nodes = before ++ more := by
  cases reading with
  | done =>
    rw [after] at done
    obtain ⟨rfl, rfl, rfl⟩ := Reading.done.inj done
    exact ⟨_, rfl, rfl⟩
  | stuck => simp [after] at done

/-- Changed nodes come from a reading with the nodes unchanged. -/
theorem map_eq_done {change : List Node → List Node}
    (done : reading.map change = .done nodes rest reach) :
    ∃ before, reading = .done before rest reach ∧ nodes = change before := by
  cases reading with
  | done =>
    rw [map] at done
    obtain ⟨rfl, rfl, rfl⟩ := Reading.done.inj done
    exact ⟨_, rfl, rfl⟩
  | stuck => simp [map] at done

/-- A reading under a condition is done only if the condition holds. -/
theorem of_ite_eq_done {condition : Prop} [Decidable condition] {looked : Nat}
    (done : (if condition then reading else .stuck looked) = .done nodes rest reach) :
    condition ∧ reading = .done nodes rest reach := by
  by_cases holds : condition
  · rw [if_pos holds] at done
    exact ⟨holds, done⟩
  · rw [if_neg holds] at done
    contradiction

/-- A choice that fits is one of its rules. -/
theorem byFirst_eq_done {read : ρ → Reading} {rules : List ρ}
    (done : byFirst read rules = .done nodes rest reach) :
    ∃ rule ∈ rules, ∃ reached, read rule = .done nodes rest reached := by
  induction rules generalizing reach with
  | nil => simp [byFirst] at done
  | cons rule rules ih =>
    rw [byFirst] at done
    split at done
    · next found =>
      obtain ⟨rfl, rfl, rfl⟩ := Reading.done.inj done
      exact ⟨rule, List.mem_cons_self, _, found⟩
    · obtain ⟨_, later⟩ := having_eq_done done
      obtain ⟨other, inside, found⟩ := ih later
      exact ⟨other, List.mem_cons_of_mem _ inside, found⟩

end Reading

/-- A growth that fits is one of those that apply, and what follows was read by its tail. -/
theorem Growth.byFirst_eq_done {ρ : Type} {read : ρ → Reading} {construct : Construct}
    {nodes larger : List Node} {growths : List (Growth ρ)} {rest : List Token} {reach : Nat}
    (done : Growth.byFirst read construct nodes growths = .done larger rest reach) :
    ∃ growth ∈ growths, growth.onto construct = true ∧ ∃ tail reached,
      read growth.tail = .done tail rest reached ∧ larger = growth.apply nodes tail := by
  induction growths generalizing reach with
  | nil => simp [byFirst] at done
  | cons growth growths ih =>
    rw [byFirst] at done
    split at done
    · next onto =>
      split at done
      · next found =>
        obtain ⟨rfl, rfl, rfl⟩ := Reading.done.inj done
        exact ⟨growth, List.mem_cons_self, onto, _, _, found, rfl⟩
      · obtain ⟨_, later⟩ := Reading.having_eq_done done
        obtain ⟨other, inside, found⟩ := ih later
        exact ⟨other, List.mem_cons_of_mem _ inside, found⟩
    · obtain ⟨other, inside, found⟩ := ih done
      exact ⟨other, List.mem_cons_of_mem _ inside, found⟩

namespace Rule

variable {π : Type}

/-- A rule derives nodes from the front of a token list and leaves the other tokens. -/
inductive Reads (grammar : π → Rule π) : Rule π → List Token → List Node → List Token → Prop
  | text {spelling : String} {token : Token} {rest : List Token}
    (spells : token.spells spelling = true) :
    Reads grammar (.text spelling) (token :: rest) (token.nodes (.mark spelling)) rest
  | leaf {construct : Construct} {spelling : String} {token : Token} {rest : List Token}
    (spells : token.spells spelling = true) :
    Reads grammar (.leaf construct spelling) (token :: rest) (token.nodes (.construct construct))
      rest
  | name {construct : Construct} {reserved : List String} {token : Token} {rest : List Token}
    (named : token.isName reserved = true) :
    Reads grammar (.name construct reserved) (token :: rest) (token.nodes (.construct construct))
      rest
  | closing {token bracket : Token} {left rest : List Token}
    (split : token.splitClosing? = Option.some (bracket, left)) :
    Reads grammar .closing (token :: rest) (bracket.nodes (.mark ">")) (left ++ rest)
  | literal {construct : Construct} {token : Token} {rest : List Token}
    (sort : token.sort = .literal construct) :
    Reads grammar (.literal construct) (token :: rest) (token.nodes (.construct construct)) rest
  | finish {token : Token} {rest : List Token} (sort : token.sort = .finish) :
    Reads grammar .finish (token :: rest) token.before [token]
  | part {which : π} {tokens rest : List Token} {nodes : List Node}
    (body : Reads grammar (grammar which) tokens nodes rest) :
    Reads grammar (.part which) tokens nodes rest
  | seqNil {tokens : List Token} : Reads grammar (.seq []) tokens [] tokens
  | seqCons {rule : Rule π} {rules : List (Rule π)} {tokens middle rest : List Token}
    {nodes more : List Node} (first : Reads grammar rule tokens nodes middle)
    (later : Reads grammar (.seq rules) middle more rest) :
    Reads grammar (.seq (rule :: rules)) tokens (nodes ++ more) rest
  | choice {rule : Rule π} {rules : List (Rule π)} {tokens rest : List Token}
    {nodes : List Node} (chosen : rule ∈ rules) (body : Reads grammar rule tokens nodes rest) :
    Reads grammar (.choice rules) tokens nodes rest
  | manyNil {rule : Rule π} {tokens : List Token} : Reads grammar (.many rule) tokens [] tokens
  | manyCons {rule : Rule π} {tokens middle rest : List Token} {nodes more : List Node}
    (first : Reads grammar rule tokens nodes middle)
    (later : Reads grammar (.many rule) middle more rest) :
    Reads grammar (.many rule) tokens (nodes ++ more) rest
  | ahead {texts : List String} {tokens : List Token} :
    Reads grammar (.ahead texts) tokens [] tokens
  | node {construct : Construct} {rule : Rule π} {tokens rest : List Token} {nodes : List Node}
    (body : Reads grammar rule tokens nodes rest) :
    Reads grammar (.node construct rule) tokens (enclose construct nodes) rest
  | field {role : Role} {rule : Rule π} {tokens rest : List Token} {nodes : List Node}
    (body : Reads grammar rule tokens nodes rest) :
    Reads grammar (.field role rule) tokens (inRole role nodes) rest
  | only {constructs : List Construct} {rule : Rule π} {tokens rest : List Token}
    {nodes : List Node} (body : Reads grammar rule tokens nodes rest)
    (leading : (leadingConstruct? nodes).any constructs.contains = true) :
    Reads grammar (.only constructs rule) tokens nodes rest
  | seed {seed : Rule π} {growths : List (Growth (Rule π))} {tokens rest : List Token}
    {nodes : List Node} (body : Reads grammar seed tokens nodes rest) :
    Reads grammar (.grow seed growths) tokens nodes rest
  | growth {seed : Rule π} {growths : List (Growth (Rule π))} {growth : Growth (Rule π)}
    {construct : Construct} {tokens middle rest : List Token} {nodes tail : List Node}
    (base : Reads grammar (.grow seed growths) tokens nodes middle) (applies : growth ∈ growths)
    (leading : leadingConstruct? nodes = Option.some construct)
    (onto : growth.onto construct = true) (later : Reads grammar growth.tail middle tail rest) :
    Reads grammar (.grow seed growths) tokens (growth.apply nodes tail) rest

variable {grammar : π → Rule π}

/-- Rules read in turn derive their sequence, if each derives what is read by it. -/
theorem reads_seq_of_inTurn {read : Rule π → List Token → Reading}
    (sound : ∀ ⦃rule tokens nodes rest reach⦄, read rule tokens = .done nodes rest reach →
      Reads grammar rule tokens nodes rest)
    {rules : List (Rule π)} {tokens rest : List Token} {nodes : List Node} {reach : Nat}
    (done : Reading.inTurn read rules tokens = .done nodes rest reach) :
    Reads grammar (.seq rules) tokens nodes rest := by
  induction rules generalizing tokens nodes reach with
  | nil =>
    rw [Reading.inTurn] at done
    obtain ⟨rfl, rfl, _⟩ := Reading.done.inj done
    exact .seqNil
  | cons rule rules ih =>
    rw [Reading.inTurn] at done
    split at done
    · next first =>
      obtain ⟨_, joined⟩ := Reading.having_eq_done done
      obtain ⟨more, later, rfl⟩ := Reading.after_eq_done joined
      exact .seqCons (sound first) (ih later)
    · contradiction

/-- With some fuel the reader returns only what the grammar derives. -/
def ReadSound (grammar : π → Rule π) (fuel : Nat) : Prop :=
  ∀ ⦃rule tokens nodes rest reach⦄, read grammar fuel rule tokens = .done nodes rest reach →
    Reads grammar rule tokens nodes rest

/-- With some fuel the loop that lets a node grow makes only what the grammar derives, from
what the grammar derives. -/
def GrownSound (grammar : π → Rule π) (fuel : Nat) : Prop :=
  ∀ ⦃seed growths start nodes tokens larger rest reach⦄,
    Reads grammar (.grow seed growths) start nodes tokens →
    grown grammar fuel growths nodes tokens = .done larger rest reach →
    Reads grammar (.grow seed growths) start larger rest

variable {fuel : Nat}

/-- One step of the reader: every form of rule derives what is read by it. -/
theorem readSound_succ (sound : ReadSound grammar fuel) (grows : GrownSound grammar fuel) :
    ReadSound grammar (fuel + 1) := by
  intro rule tokens nodes rest reach done
  cases tokens with
  | nil => simp [read] at done
  | cons token tokens =>
    cases rule with
    | text spelling =>
      rw [read] at done
      obtain ⟨spells, done⟩ := Reading.of_ite_eq_done done
      obtain ⟨rfl, rfl, _⟩ := Reading.done.inj done
      exact .text spells
    | leaf construct spelling =>
      rw [read] at done
      obtain ⟨spells, done⟩ := Reading.of_ite_eq_done done
      obtain ⟨rfl, rfl, _⟩ := Reading.done.inj done
      exact .leaf spells
    | name construct reserved =>
      rw [read] at done
      obtain ⟨named, done⟩ := Reading.of_ite_eq_done done
      obtain ⟨rfl, rfl, _⟩ := Reading.done.inj done
      exact .name named
    | closing =>
      rw [read] at done
      split at done
      · next split =>
        obtain ⟨rfl, rfl, _⟩ := Reading.done.inj done
        exact .closing split
      · contradiction
    | literal construct =>
      rw [read] at done
      obtain ⟨sort, done⟩ := Reading.of_ite_eq_done done
      obtain ⟨rfl, rfl, _⟩ := Reading.done.inj done
      exact .literal (eq_of_beq sort)
    | finish =>
      rw [read] at done
      obtain ⟨sort, done⟩ := Reading.of_ite_eq_done done
      obtain ⟨rfl, rfl, _⟩ := Reading.done.inj done
      exact .finish (eq_of_beq sort)
    | part which =>
      rw [read] at done
      exact .part (sound done)
    | seq rules =>
      rw [read] at done
      exact reads_seq_of_inTurn sound done
    | choice rules =>
      rw [read] at done
      obtain ⟨rule, inside, _, found⟩ := Reading.byFirst_eq_done done
      exact .choice inside (sound found)
    | many rule =>
      rw [read] at done
      split at done
      · next first =>
        obtain ⟨_, joined⟩ := Reading.having_eq_done done
        obtain ⟨more, later, rfl⟩ := Reading.after_eq_done joined
        exact .manyCons (sound first) (sound later)
      · obtain ⟨rfl, rfl, _⟩ := Reading.done.inj done
        exact .manyNil
    | ahead texts =>
      rw [read] at done
      obtain ⟨_, done⟩ := Reading.of_ite_eq_done done
      obtain ⟨rfl, rfl, _⟩ := Reading.done.inj done
      exact .ahead
    | node construct rule =>
      rw [read] at done
      obtain ⟨inner, found, rfl⟩ := Reading.map_eq_done done
      exact .node (sound found)
    | field role rule =>
      rw [read] at done
      obtain ⟨inner, found, rfl⟩ := Reading.map_eq_done done
      exact .field (sound found)
    | only constructs rule =>
      rw [read] at done
      split at done
      · next found =>
        obtain ⟨leading, done⟩ := Reading.of_ite_eq_done done
        obtain ⟨rfl, rfl, _⟩ := Reading.done.inj done
        exact .only (sound found) leading
      · contradiction
    | grow seed growths =>
      rw [read] at done
      split at done
      · next found =>
        obtain ⟨_, larger⟩ := Reading.having_eq_done done
        exact grows (.seed (sound found)) larger
      · contradiction

/-- One step of the loop: a node stays as it is, or it grows once and the loop goes on. -/
theorem grownSound_succ (sound : ReadSound grammar fuel) (grows : GrownSound grammar fuel) :
    GrownSound grammar (fuel + 1) := by
  intro seed growths start nodes tokens larger rest reach base done
  rw [grown] at done
  split at done
  · obtain ⟨rfl, rfl, _⟩ := Reading.done.inj done
    exact base
  · next construct leading =>
    split at done
    · next step =>
      obtain ⟨_, more⟩ := Reading.having_eq_done done
      obtain ⟨growth, applies, onto, tail, _, later, rfl⟩ := Growth.byFirst_eq_done step
      exact grows (.growth base applies leading onto (sound later)) more
    · obtain ⟨rfl, rfl, _⟩ := Reading.done.inj done
      exact base

/-- The reader and the loop are sound together. Induction on the fuel that they share. -/
theorem readSound_and_grownSound (fuel : Nat) :
    ReadSound grammar fuel ∧ GrownSound grammar fuel := by
  induction fuel with
  | zero =>
    constructor
    · intro rule tokens nodes rest reach done
      simp [read] at done
    · intro seed growths start nodes tokens larger rest reach base done
      rw [grown] at done
      obtain ⟨rfl, rfl, _⟩ := Reading.done.inj done
      exact base
  | succ fuel ih =>
    obtain ⟨sound, grows⟩ := ih
    exact ⟨readSound_succ sound grows, grownSound_succ sound grows⟩

/-- The reader returns only what its rule derives. -/
theorem read_sound {fuel : Nat} {rule : Rule π} {tokens rest : List Token} {nodes : List Node}
    {reach : Nat} (done : read grammar fuel rule tokens = .done nodes rest reach) :
    Reads grammar rule tokens nodes rest :=
  (readSound_and_grownSound fuel).1 done

end Rule

end CaretName
