import CaretName.Proofs.Grammar.Blanks

/-!
# Where words end

A word goes on for as long as it can. What starts at the byte where a word ends is therefore
nothing that a word could go on with. `Lexer.tokenize_placed` compares the bytes of the tokens with
the characters of the source, and `Grammar.stop_ne_start` says it of the names of a tree and the
tokens in it.
-/
namespace CaretName

/-- Whether a word could go on with some characters. -/
def GoesOn (chars : List Char) : Prop := ∃ char ∈ chars.head?, continuesIdentifier char = true

/-- The characters that come after some bytes of others. -/
def ComesAfter (chars : List Char) (byte : Nat) (after : List Char) : Prop :=
  ∃ before, before ++ after = chars ∧ byteCount before = byte

/-- What comes after some bytes is one thing only: characters between two positions would take up
room. -/
theorem ComesAfter.unique {chars after other : List Char} {byte : Nat}
    (one : ComesAfter chars byte after) (two : ComesAfter chars byte other) : after = other := by
  have longer {before before' after after' : List Char} (same : before ++ after = before' ++ after')
      (bytes : byteCount before = byteCount before') (more : before.length ≤ before'.length) :
      after = after' := by
    obtain ⟨between, rfl⟩ := List.prefix_of_prefix_length_le (List.prefix_append before after)
      (same ▸ List.prefix_append before' after') more
    have none : between = [] := by
      by_contra some
      have room := byteCount_pos some
      rw [byteCount_append] at bytes
      omega
    simpa [none] using same
  obtain ⟨before, rfl, bytes⟩ := one
  obtain ⟨before', same, bytes'⟩ := two
  rcases Nat.le_total before.length before'.length with more | more
  · exact longer same.symm (bytes.trans bytes'.symm) more
  · exact (longer same (bytes'.trans bytes.symm) more).symm

/-- What could continue a word starts where the characters of a source do, and where a word ends
they do not continue it. -/
structure Placed (chars : List Char) (isWord : Bool) (text : String) (start stop : Nat) : Prop where
  starts : GoesOn text.toList → ∃ after, ComesAfter chars start after ∧ GoesOn after
  ends : isWord = true → ∃ after, ComesAfter chars stop after ∧ ¬ GoesOn after

/-- A token is where it was read. -/
def Token.Placed (chars : List Char) (token : Token) : Prop :=
  CaretName.Placed chars (token.sort == .word) token.text token.span.start token.span.stop

/-- A node without children is where it was read, and as a name it is a word. -/
def Node.Placed (chars : List Char) (node : Node) : Prop :=
  node.children = [] →
    CaretName.Placed chars (node.isAny Grammar.nameConstructs) node.text node.start node.stop

/-- What is no word and continues none can be anywhere. -/
theorem Placed.of_not {chars : List Char} {text : String} {start stop : Nat}
    (stands : ¬ GoesOn text.toList) : Placed chars false text start stop :=
  ⟨fun goes => absurd goes stands, by simp⟩

/-! ## Tokens -/

namespace Lexer

/-- The characters of a lexeme and what is left stand behind those in front of them. -/
theorem Cuts.behind {chars : List Char} {lexeme : Lexeme} (cuts : Cuts chars lexeme)
    (front : List Char) : front ++ lexeme.chars ++ lexeme.rest = front ++ chars := by
  rw [List.append_assoc, cuts.whole]

/-- The tokens of characters are where they were read, behind the characters in front of them. -/
theorem Tokenizes.placed {modes : List Mode} {offset index : Nat} {gap : String}
    {before : List Node} {chars : List Char} {tokens : List Token} (front : List Char)
    (tokenizes : Tokenizes modes offset index gap before chars tokens)
    (delimited : ∀ mode ∈ modes, mode.Delimited) (reached : byteCount front = offset) :
    ∀ token ∈ tokens, token.Placed (front ++ chars) := by
  induction tokenizes generalizing front with
  | finish =>
    refine List.forall_mem_singleton.mpr (.of_not ?_)
    rintro ⟨char, first, _⟩
    simp at first
  | space next _ _ ih | comment next _ _ _ ih =>
    rw [← (next?_cuts (Mode.quoted_of_delimited delimited) next).behind front]
    exact ih _ delimited (by rw [byteCount_append, reached])
  | @token modes offset index gap before chars lexeme tokens next solid _ ih =>
    subst reached
    have cuts := next?_cuts (Mode.quoted_of_delimited delimited) next
    have stops := next?_stops delimited next
    have whole := cuts.behind front
    refine List.forall_mem_cons.mpr ⟨⟨fun goes => ?_, fun isWord => ?_⟩, ?_⟩
    · refine ⟨chars, ⟨front, rfl, rfl⟩, ?_⟩
      obtain ⟨char, first, continues⟩ := goes
      refine ⟨char, ?_, continues⟩
      rw [← cuts.whole, List.head?_append_of_ne_nil _ cuts.some]
      rwa [String.toList_ofList] at first
    · have word : lexeme.sort = .word := eq_of_beq isWord
      refine ⟨lexeme.rest, ⟨front ++ lexeme.chars, whole, ?_⟩, ?_⟩
      · simp only [Token.span, byteCount_append, utf8ByteSize_ofList]
      · rintro ⟨char, first, continues⟩
        have ended := stops.ends solid (stops.word word) char first
        rw [ended] at continues
        contradiction
    · rw [← whole]
      refine ih _ ?_ (by rw [byteCount_append])
      split
      · exact Mode.delimited_after delimited
      · exact delimited

/-- The tokens of a source are where they were read. -/
theorem tokenize_placed (source : String) :
    ∀ token ∈ tokenize source, token.Placed source.toList := by
  have delimited : ∀ mode ∈ [Mode.code 0], mode.Delimited := by simp [Mode.Delimited]
  unfold tokenize
  split
  · next chars marked =>
    rw [marked]
    exact Tokenizes.placed ['\uFEFF'] tokenizes delimited rfl
  · exact Tokenizes.placed [] tokenizes delimited rfl

end Lexer

/-! ## Nodes -/

/-- A token that was read from characters, with all that is known of it. -/
structure Token.Read (chars : List Char) (token : Token) : Prop where
  genuine : token.Genuine
  spelled : token.Spelled
  placed : token.Placed chars

/-- Neither brackets nor comments continue a word. -/
theorem not_goesOn_of_head {chars : List Char} {char : Char} (first : chars.head? = some char)
    (sign : char ∈ ['>', '=', '/']) : ¬ GoesOn chars := by
  rintro ⟨other, found, continues⟩
  obtain rfl : char = other := by simpa [first] using found
  have apart : ['>', '=', '/'].all (!continuesIdentifier ·) = true := by decide
  have stops := List.all_eq_true.mp apart char sign
  rw [continues] at stops
  contradiction

namespace Token.Read

variable {chars : List Char} {token bracket : Token} {left : List Token}

/-- The pieces of a mark that is taken apart are where it was read. -/
theorem of_splitClosing? (read : token.Read chars)
    (split : token.splitClosing? = some (bracket, left)) :
    bracket.Read chars ∧ ∀ part ∈ left, part.Read chars := by
  have genuine := read.genuine.of_splitClosing? split
  have spelled := read.spelled.of_splitClosing? read.genuine.sound split
  obtain ⟨mark, more, _, rfl, rfl⟩ := splitClosing?_eq_some read.genuine.sound split
  have noWord : (token.sort == .word) = false := by simp [mark]
  refine ⟨⟨genuine.1, spelled.1, ?_⟩, fun part inside =>
    ⟨genuine.2 part inside, (spelled.2 part inside).1, ?_⟩⟩
  · rw [Token.Placed, noWord]
    exact .of_not (not_goesOn_of_head (show ">".toList.head? = some '>' from rfl) (by decide))
  · have brackets := (spelled.2 part inside).2
    split at inside
    · contradiction
    · obtain rfl := List.mem_singleton.mp inside
      rw [Token.Placed, noWord]
      refine .of_not ?_
      rintro ⟨char, first, continues⟩
      have sign := brackets char (List.mem_of_mem_head? first)
      exact not_goesOn_of_head first (by rcases sign with rfl | rfl <;> simp)
        ⟨char, first, continues⟩

/-- The comments in front of a token are no words and continue none. -/
theorem comments (read : token.Read chars) : ∀ comment ∈ token.before, comment.Placed chars := by
  intro comment inside _
  have isComment := (read.genuine.sound.comments comment inside).isComment
  have noName : comment.isAny Grammar.nameConstructs = false := Place.isAny_eq_false
    (show (Place.root comment).isAny Place.commentConstructs = true from isComment) (by decide)
  rw [noName]
  exact .of_not (not_goesOn_of_head (read.genuine.slash comment inside) (by simp))

end Token.Read

namespace Rule

open Grammar

variable {rule : Grammar.Rule} {tokens rest : List Token} {nodes : List Node} {chars : List Char}

/-- The construct of a regular shape is no name. -/
theorem not_name_of_shape {shape : Shape} (checked : regularShape shape = true) :
    shape.construct ∉ nameConstructs := by
  simp only [regularShape, Bool.and_eq_true, Bool.not_eq_true', List.contains_eq_mem,
    List.mem_append, decide_eq_false_iff_not, not_or] at checked
  exact checked.1.1.1.1.1

/-- A construct that is no name is where it was read, if it has no children. -/
theorem placed_branch {construct : Construct} (noName : construct ∉ nameConstructs)
    (inside : List Node) (span : Span) :
    Node.Placed chars (.branch (.construct construct) Option.none span inside) := by
  intro childless
  obtain rfl : inside = [] := childless
  have other : (Node.branch (.construct construct) Option.none span []).isAny nameConstructs =
      false := by
    rw [Bool.eq_false_iff]
    intro isName
    obtain ⟨own, listed, kind⟩ := Node.isAny_iff.mp isName
    obtain rfl := Kind.construct.inj kind
    exact noName listed
  rw [other]
  refine .of_not ?_
  rintro ⟨char, first, _⟩
  simp [Node.text] at first

/-- Nodes are where they were read in any role. -/
theorem placed_withRole {node : Node} (placed : node.Placed chars) (role : Option Role) :
    (node.withRole role).Placed chars := by
  intro childless
  have kinds : (node.withRole role).isAny nameConstructs = node.isAny nameConstructs := by
    cases node <;> rfl
  rw [kinds, Node.text_withRole, Node.start_withRole, Node.stop_withRole]
  exact placed (by simpa using childless)

/-- A token is where it was read as any node, if it is a name only as a word. -/
theorem placed_leaf {token : Token} (read : token.Read chars) {kind : Kind}
    (named : (token.leaf kind).isAny nameConstructs = true → token.sort = .word) :
    (token.leaf kind).Placed chars := by
  refine fun _ => ⟨read.placed.starts, fun isName => read.placed.ends ?_⟩
  rw [named isName, beq_self_eq_true]

/-- What a regular rule makes is where it was read. -/
theorem Forms.placed {node : Node} (forms : Forms rules (Token.Read chars) rule node)
    (checked : rule.makes = true → regular rule = true) : node.Placed chars := by
  have other {construct : Construct} {token : Token} (noName : construct ∉ nameConstructs)
      (isName : (token.leaf (.construct construct)).isAny nameConstructs = true) :
      token.sort = .word := by
    obtain ⟨own, listed, kind⟩ := Node.isAny_iff.mp isName
    obtain rfl := Kind.construct.inj kind
    exact absurd listed noName
  have mark {token : Token} {text : String}
      (isName : (token.leaf (.mark text)).isAny nameConstructs = true) : token.sort = .word := by
    obtain ⟨own, listed, kind⟩ := Node.isAny_iff.mp isName
    cases kind
  cases forms with
  | text first spells => exact placed_leaf first mark
  | leaf first | literal first =>
    have checked := checked rfl
    simp only [regular, Bool.not_eq_true', List.contains_eq_mem, List.mem_append,
      decide_eq_false_iff_not, not_or] at checked
    exact placed_leaf first (other checked.1.1)
  | name first named => exact placed_leaf first fun _ => first.genuine.sound.word_of_isName named
  | closing first split => exact placed_leaf (first.of_splitClosing? split).1 mark
  | node all body =>
    have shaped := List.all_eq_true.mp (checked rfl) _ (List.mem_singleton_self _)
    exact placed_branch (not_name_of_shape shaped) _ _
  | growth all applies base onto later =>
    have shaped := List.all_eq_true.mp (checked rfl) _ (List.mem_map_of_mem applies)
    exact placed_branch (not_name_of_shape shaped) _ _

/-- The nodes of a derivation are where they were read. -/
theorem Reads.placed (reads : Reads rules rule tokens nodes rest)
    (read : ∀ token ∈ tokens, token.Read chars)
    (here : ∀ inner ∈ rule.within, inner.makes = true → regular inner = true) :
    ∀ node ∈ nodes, node.Everywhere (Node.Placed chars) :=
  reads.everywhere_of_forms
    ⟨fun _ own => own.genuine.sound, fun _ _ _ => Token.Read.of_splitClosing?⟩
    (fun _ placed => placed_withRole placed) (fun _ own => own.comments)
    (fun which inner inside _ forms => forms.placed fun _ => regular_rules which inner inside) read
    fun inner inside _ forms => forms.placed (here inner inside)

end Rule

/-! ## Trees of sources -/

namespace Grammar

variable {source : String} {place name token : Place}

/-- The nodes of a source that is read without a repair are where they were read. -/
theorem placed_parse (accepted : accepts source = true) :
    (parse source).Everywhere (Node.Placed source.toList) := by
  have continues := Lexer.tokenize_continue source
  have read : ∀ token ∈ Lexer.tokenize source, token.Read source.toList := fun token inside =>
    ⟨⟨Lexer.tokenize_sound token inside, Lexer.tokenize_slash source token inside⟩,
      continues.spelled token inside, Lexer.tokenize_placed source token inside⟩
  obtain ⟨nodes, rest, reads, same⟩ := exists_reads accepted
  rw [same]
  refine .intro (Rule.placed_branch (by decide) _ _) ?_
  refine reads.placed read fun inner inside makes => ?_
  rw [makes_file inside] at makes
  contradiction

/-- A token that could continue a name does not start where the name ends. -/
theorem stop_ne_start (accepted : accepts source = true) (heldName : (parse source).Holds name)
    (isName : name.isAny nameConstructs = true) (heldToken : (parse source).Holds token)
    (childless : token.node.children = []) (goes : GoesOn token.text.toList) :
    name.stop ≠ token.start := by
  have placed := placed_parse accepted
  have bare := ((wellFormed_parse accepted).name_token heldName isName).1
  obtain ⟨after, behind, ended⟩ := ((placed.at_place heldName).here bare).ends isName
  obtain ⟨other, ahead, continues⟩ := ((placed.at_place heldToken).here childless).starts goes
  intro same
  have behind : ComesAfter source.toList name.stop after := behind
  rw [same] at behind
  rw [behind.unique ahead] at ended
  exact ended continues

/-! ## Keywords -/

/-- How the constructs are spelled that are always spelled the same way. -/
def keyword? : Construct → Option String
  | .underscorePattern => some "_"
  | _ => none

/-- Whether a rule makes the constructs with a spelling of their own only of what is spelled so. -/
def spellsKeywords : Grammar.Rule → Bool
  | .leaf construct text => (keyword? construct).all (· == text)
  | .name construct _ | .literal construct | .node construct _ => (keyword? construct).isNone
  | .grow _ growths => growths.all fun growth => (keyword? growth.construct).isNone
  | _ => true

/-- Operands and operators spell keywords as such. -/
theorem spellsKeywords_expression (arrow : Bool) :
    (operand arrow).within.all spellsKeywords = true ∧
      ((operatorGrowths arrow).map (·.2)).all (fun growth =>
        (keyword? growth.construct).isNone && growth.tail.within.all spellsKeywords) = true := by
  cases arrow <;> decide +kernel

/-- All rules of the grammar spell keywords as such. -/
theorem spellsKeywords_rules : ∀ which, ∀ inner ∈ (rules which).within,
    spellsKeywords inner = true := by
  refine all_within_rules spellsKeywords_expression (fun floor arrow growths => ?_)
    (by decide +kernel)
  rw [expressionAbove, spellsKeywords, List.all_eq_true]
  exact growths

/-- A construct with a spelling of its own is spelled so. -/
theorem text_of_keyword? (accepted : accepts source = true) (held : (parse source).Holds place)
    (below : token ∈ place.children) {construct : Construct} {text : String}
    (itself : token.is construct = true) (spelled : keyword? construct = some text) :
    token.text = text := by
  cases (origin_at accepted held below).here.built (Place.is_iff.mp itself) with
  | comment listed =>
    simp only [List.mem_cons, List.not_mem_nil, or_false] at listed
    rcases listed with rfl | rfl <;> contradiction
  | leaf belongs _ same =>
    obtain ⟨which, inside⟩ := belongs
    have checked := spellsKeywords_rules which _ inside
    simp only [spellsKeywords, spelled, Option.all_some, beq_iff_eq] at checked
    exact same.trans checked.symm
  | name belongs | literal belongs | node belongs =>
    obtain ⟨which, inside⟩ := belongs
    have checked := spellsKeywords_rules which _ inside
    simp [spellsKeywords, spelled] at checked
  | growth belongs applies makes =>
    obtain ⟨which, inside⟩ := belongs
    have checked := List.all_eq_true.mp (spellsKeywords_rules which _ inside) _ applies
    simp [makes, spelled] at checked

end Grammar

end CaretName
