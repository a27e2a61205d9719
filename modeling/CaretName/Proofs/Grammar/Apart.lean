import CaretName.Proofs.Grammar.WellFormed
import CaretName.Proofs.Tree.Pieces
import CaretName.Text.Blank
import Mathlib.Data.List.Chain

/-!
# Tokens that stay apart

A word goes on for as long as it can, so no character that a word could go on with follows one
directly, and neither does one follow a comment that ends with its line. `Lexer.tokens_follow`
proves it for the tokens of a source, and `Rule.Reads.follow` takes it over to the pieces of what
a grammar derives: no rule changes the order of its tokens, makes a piece without a text or a
construct without children.
-/
namespace CaretName

namespace Piece

/-- Whether characters are those of a word or of a comment that ends with its line. -/
def binds (chars : List Char) : Bool :=
  chars.head?.any startsIdentifier || ['/', '/'].isPrefixOf chars

/-- What lies between two pieces is white space, and there is some where the second could be
taken for a part of the first. -/
structure Follows (first next : Piece) : Prop where
  blank : ∀ char ∈ next.gap.toList, isBlank char = true
  apart : binds first.text.toList = true → next.gap = "" →
    ∀ char ∈ next.text.toList.head?, continuesIdentifier char = false

/-- More characters bind if the first ones do. -/
theorem binds_of_prefix {chars more : List Char} (front : chars <+: more)
    (bound : binds chars = true) : binds more = true := by
  obtain ⟨rest, rfl⟩ := front
  rw [binds, Bool.or_eq_true] at bound ⊢
  rcases bound with word | comment
  · left
    cases chars with
    | nil => contradiction
    | cons => exact word
  · right
    rw [List.isPrefixOf_iff_prefix] at comment ⊢
    exact comment.trans (List.prefix_append _ _)

/-- What starts with a bracket or an equality sign does not bind. -/
theorem binds_brackets {chars : List Char} (brackets : ∀ char ∈ chars, char = '>' ∨ char = '=') :
    binds chars = false := by
  have signs : startsIdentifier '>' = false ∧ startsIdentifier '=' = false := by decide
  cases chars with
  | nil => rfl
  | cons char rest =>
    rcases brackets char List.mem_cons_self with rfl | rfl
    · simp [binds, signs, List.isPrefixOf]
    · simp [binds, signs, List.isPrefixOf]

/-- The bracket at the front of a piece made of brackets can be a piece of its own. -/
theorem isChain_bracket {front rest : List Piece} {gap text : String} {more : List Char}
    (spelled : text.toList = '>' :: more) (brackets : ∀ char ∈ more, char = '>' ∨ char = '=')
    (chain : List.IsChain Follows (front ++ ⟨gap, text⟩ :: rest)) :
    List.IsChain Follows (front ++ ⟨gap, ">"⟩ :: ⟨"", String.ofList more⟩ :: rest) := by
  obtain ⟨before, after, between⟩ := List.isChain_append.mp chain
  obtain ⟨next, later⟩ := List.isChain_cons.mp after
  refine List.isChain_append.mpr ⟨before, ?_, fun last found piece first => ?_⟩
  · have loose : binds (">" : String).toList ≠ true := by decide
    refine List.isChain_cons_cons.mpr
      ⟨⟨by simp, fun bound => absurd bound loose⟩, List.isChain_cons.mpr ⟨?_, later⟩⟩
    intro piece found
    refine ⟨(next piece found).blank, fun bound => ?_⟩
    rw [String.toList_ofList, binds_brackets brackets] at bound
    contradiction
  · obtain rfl : (⟨gap, ">"⟩ : Piece) = piece := by simpa using first
    have follows := between last found ⟨gap, text⟩ rfl
    refine ⟨follows.blank, fun bound empty char next => follows.apart bound empty char ?_⟩
    rw [spelled]
    simpa using next

end Piece

open Piece

namespace Lexer

/-! ## Lexemes -/

/-- How a lexeme is set off from what follows it, and what words, white space and brackets are. -/
structure Stops (lexeme : Lexeme) : Prop where
  word : lexeme.sort = .word → binds lexeme.chars = true
  ends : lexeme.sort ≠ .finish → binds lexeme.chars = true →
    ∀ char ∈ lexeme.rest.head?, continuesIdentifier char = false
  blank : lexeme.sort = .finish → ∀ char ∈ lexeme.chars, isBlank char = true
  bracket : lexeme.sort = .mark → lexeme.chars.head? = some '>' →
    ∀ char ∈ lexeme.chars, char = '>' ∨ char = '='

/-- A literal that does not bind stops anywhere. -/
theorem stops_of_literal {lexeme : Lexeme} {construct : Construct}
    (sort : lexeme.sort = .literal construct)
    (ends : binds lexeme.chars = true →
      ∀ char ∈ lexeme.rest.head?, continuesIdentifier char = false) : Stops lexeme :=
  ⟨by simp [sort], fun _ => ends, by simp [sort], by simp [sort]⟩

/-- A mark that does not bind and does not start with a bracket stops anywhere. -/
theorem stops_of_mark {chars rest : List Char}
    (loose : binds chars = false ∧ chars.head? ≠ some '>') : Stops ⟨.mark, chars, rest⟩ :=
  ⟨by simp, fun _ bound => absurd bound (by simp [loose.1]), by simp,
    fun _ bracket => absurd bracket loose.2⟩

/-- A run of characters of some class ends where one of another class follows. -/
theorem span_ends (holds : Char → Bool) (chars : List Char) :
    ∀ char ∈ (chars.span holds).2.head?, holds char = false := by
  intro char found
  have stopped := List.head?_dropWhile_not holds chars
  rw [List.span_eq_takeWhile_dropWhile, Option.mem_def] at found
  rw [found] at stopped
  exact stopped

/-- A comment at the end of a line is followed by the end of the line. -/
theorem comment_stops {chars : List Char} {lexeme : Lexeme}
    (found : comment? chars = some lexeme) : Stops lexeme := by
  cases form_of_comment? found with
  | @line chars =>
    refine stops_of_literal rfl fun _ char next => ?_
    have newline : char = '\n' := by simpa using span_ends (· != '\n') chars char next
    rw [newline]
    decide
  | @block _ body rest _ =>
    refine stops_of_literal rfl fun bound => ?_
    have loose : ¬ binds ('/' :: '*' :: body) = true := by simp [binds]; decide
    exact absurd bound loose

/-- A word is followed by nothing that it could go on with. -/
theorem word_stops {chars : List Char} {lexeme : Lexeme} (found : word? chars = some lexeme) :
    Stops lexeme := by
  cases form_of_word? found with
  | @word first chars starts =>
    refine ⟨fun _ => ?_, fun _ _ => span_ends continuesIdentifier _, by simp, by simp⟩
    have goesOn : continuesIdentifier first = true := by simp [continuesIdentifier, starts]
    simp [List.takeWhile_cons_of_pos goesOn, binds, starts]
  | hyphenated _ apart =>
    refine ⟨by simp, fun _ _ char next => ?_, by simp, fun _ bracket => ?_⟩
    · rw [Option.mem_def] at next
      simpa [next] using apart
    · simp at bracket

/-- A number is a literal. -/
theorem number_literal {chars : List Char} {lexeme : Lexeme} (found : number? chars = some lexeme) :
    ∃ construct, lexeme.sort = .literal construct := by
  cases form_of_number? found with
  | announced | plain | fraction => exact ⟨_, rfl⟩

/-- A mark that starts with a bracket is made of brackets and equality signs. -/
theorem bracket_of_mem_marks : ∀ text ∈ marks, text.toList.head? = some '>' →
    ∀ char ∈ text.toList, char = '>' ∨ char = '=' := by
  intro text listed front char inside
  have marked : marks.all (fun text => text.toList.head? != some '>' ||
      text.toList.all fun char => char == '>' || char == '=') = true := by
    decide +kernel
  have brackets := List.all_eq_true.mp marked text listed
  rw [front, bne_self_eq_false, Bool.false_or] at brackets
  simpa using List.all_eq_true.mp brackets char inside

/-- Where no word starts the first character is not one of those that start words. -/
theorem startsIdentifier_of_word? {char : Char} {chars : List Char}
    (noWord : word? (char :: chars) = none) : startsIdentifier char = false := by
  rw [Bool.eq_false_iff]
  intro starts
  rw [word?, if_pos starts] at noWord
  simp only at noWord
  split at noWord
  · split at noWord <;> contradiction
  · contradiction

/-- Where no comment and no word starts the characters do not bind. -/
theorem binds_eq_false {chars : List Char} (noComment : comment? chars = none)
    (noWord : word? chars = none) : binds chars = false := by
  have noLine : ['/', '/'].isPrefixOf chars = false := by
    rw [Bool.eq_false_iff]
    intro line
    obtain ⟨rest, whole⟩ := List.isPrefixOf_iff_prefix.mp line
    rw [← whole, List.cons_append, List.cons_append, comment?] at noComment
    contradiction
  cases chars with
  | nil => rfl
  | cons char chars => simp [binds, startsIdentifier_of_word? noWord, noLine]

/-- A lexeme of code stops. -/
theorem code_stops {chars : List Char} {lexeme : Lexeme} (found : code chars = some lexeme) :
    Stops lexeme := by
  have cuts := code_cuts found
  cases form_of_code found with
  | comment comment => exact comment_stops comment
  | word word => exact word_stops word
  | sign noComment noWord form =>
    have ends : binds lexeme.chars = true →
        ∀ char ∈ lexeme.rest.head?, continuesIdentifier char = false := by
      intro bound
      have whole := binds_of_prefix ⟨_, cuts.whole⟩ bound
      rw [binds_eq_false noComment noWord] at whole
      contradiction
    cases form with
    | number number =>
      obtain ⟨_, literal⟩ := number_literal number
      exact stops_of_literal literal ends
    | character => exact stops_of_literal rfl ends
    | quotes | quote => exact stops_of_mark (by decide)
    | mark listed =>
      exact ⟨by simp, fun _ => ends, by simp, fun _ => bracket_of_mem_marks _ listed⟩
    | stray => exact ⟨by simp, fun _ => ends, by simp, by simp⟩

/-- The quotes that close a string are one of the two kinds. -/
def Mode.Delimited : Mode → Prop
  | .code _ => True
  | .string quotes => quotes = "\"" ∨ quotes = "\"\"\""

/-- Both kinds of quotes have characters. -/
theorem Mode.Delimited.quoted {mode : Mode} (delimited : mode.Delimited) : mode.Quoted := by
  cases mode with
  | code => trivial
  | string quotes => rcases delimited with rfl | rfl <;> simp [Quoted]

/-- Quotes of the two kinds are quotes with characters. -/
theorem Mode.quoted_of_delimited {modes : List Mode} (delimited : ∀ mode ∈ modes, mode.Delimited) :
    ∀ mode ∈ modes, mode.Quoted :=
  fun mode inside => (delimited mode inside).quoted

/-- Every string entered after a mark has quotes of one of the two kinds. -/
theorem Mode.delimited_after {text : String} {modes : List Mode}
    (delimited : ∀ mode ∈ modes, mode.Delimited) :
    ∀ mode ∈ Mode.after text modes, mode.Delimited :=
  Mode.after_all (fun _ => trivial) (.inl rfl) (.inr rfl) delimited

/-- A lexeme inside a string stops. -/
theorem inString_stops {quotes : String} {chars : List Char} {lexeme : Lexeme}
    (delimited : (Mode.string quotes).Delimited) (found : inString quotes chars = some lexeme) :
    Stops lexeme := by
  cases form_of_inString found with
  | closing dropped => rcases delimited with rfl | rfl <;> exact stops_of_mark (by decide)
  | embedding dropped => exact stops_of_mark (by decide)
  | @escape chars =>
    refine stops_of_literal rfl fun bound => ?_
    have loose : ¬ binds ('\\' :: escapeBody chars) = true := by simp [binds]; decide
    exact absurd bound loose
  | @fragment _ chars =>
    refine stops_of_literal rfl fun _ next follows => ?_
    have ends := span_ends (fun next => next != '\"' && next != '\\') chars next follows
    rcases Bool.and_eq_false_iff.mp ends with quote | backslash
    · obtain rfl : next = '\"' := by simpa using quote
      decide
    · obtain rfl : next = '\\' := by simpa using backslash
      decide

/-- White space between tokens is white space. -/
theorem isBlank_of_isGap {char : Char} (gap : isGap char = true) : isBlank char = true := by
  have narrow : isAscii char = true := by
    simp only [isGap, Bool.or_eq_true, Bool.and_eq_true, decide_eq_true_eq, beq_iff_eq] at gap
    rcases gap with range | rfl
    · simp only [isAscii, decide_eq_true_eq]
      omega
    · decide
  rw [isBlank, if_pos narrow]
  exact gap

/-- The next lexeme is white space or stops. -/
theorem next?_stops {modes : List Mode} {chars : List Char} {lexeme : Lexeme}
    (delimited : ∀ mode ∈ modes, mode.Delimited) (found : next? modes chars = some lexeme) :
    Stops lexeme := by
  unfold next? at found
  split at found
  · exact inString_stops (delimited (.string _) List.mem_cons_self) found
  · dsimp only at found
    split at found
    · exact code_stops found
    · obtain rfl := Option.some.inj found
      refine ⟨by simp, by simp, fun _ char inside => isBlank_of_isGap ?_, by simp⟩
      simp only [List.span_eq_takeWhile_dropWhile] at inside
      exact List.mem_takeWhile_imp inside

end Lexer

/-- The pieces of a token: the comments before it and its own text. -/
def Token.pieces (token : Token) : List Piece :=
  Node.piecesAll token.before ++ [⟨token.gap, token.text⟩]

/-- How a token and the comments before it are spelled. -/
structure Token.Spelled (token : Token) : Prop where
  visible : token.sort ≠ .finish → token.text ≠ ""
  comments : Node.filledAll token.before = true
  bracket : token.sort = .mark → token.text.toList.head? = some '>' →
    ∀ char ∈ token.text.toList, char = '>' ∨ char = '='

/-- Spelled tokens whose pieces follow each other and those before them. -/
structure Token.Continue (front : List Piece) (tokens : List Token) : Prop where
  spelled : ∀ token ∈ tokens, token.Spelled
  chain : List.IsChain Follows (front ++ tokens.flatMap Token.pieces)

namespace Lexer

/-! ## All tokens of a source -/

/-- The pieces up to a byte, and what is known of what comes next. -/
structure Ready (front : List Piece) (gap : String) (chars : List Char) : Prop where
  chain : front.IsChain Follows
  blank : front ≠ [] → ∀ char ∈ gap.toList, isBlank char = true
  apart : ∀ last ∈ front.getLast?, binds last.text.toList = true → gap = "" →
    ∀ char ∈ chars.head?, continuesIdentifier char = false

/-- White space keeps apart what lies on its two sides. -/
theorem Ready.space {front : List Piece} {gap : String} {chars piece rest : List Char}
    (ready : Ready front gap chars) (some : piece ≠ [])
    (blank : ∀ char ∈ piece, isBlank char = true) :
    Ready front (gap ++ String.ofList piece) rest where
  chain := ready.chain
  blank filled char inside := by
    rw [String.toList_append, String.toList_ofList, List.mem_append] at inside
    exact inside.elim (ready.blank filled char) (blank char)
  apart last _ _ empty := by
    have none := congrArg String.toList empty
    simp [some] at none

/-- What comes next can follow the pieces so far. -/
theorem Ready.follows {front : List Piece} {gap text : String} {chars : List Char}
    (ready : Ready front gap chars) (starts : text.toList.head? = chars.head? ∨ text = "") :
    List.IsChain Follows (front ++ [⟨gap, text⟩]) := by
  refine List.isChain_append.mpr
    ⟨ready.chain, List.isChain_singleton _, fun last found next same => ?_⟩
  obtain rfl : (⟨gap, text⟩ : Piece) = next := by simpa using same
  have filled : front ≠ [] := by rintro rfl; simp at found
  refine ⟨ready.blank filled, fun bound empty char next => ?_⟩
  rcases starts with starts | rfl
  · exact ready.apart last found bound empty char (starts ▸ next)
  · simp at next

/-- A lexeme follows the pieces so far, and what comes next is set off from it. -/
theorem Ready.piece {front : List Piece} {gap : String} {chars : List Char} {lexeme : Lexeme}
    (ready : Ready front gap chars) (cuts : Cuts chars lexeme) (stops : Stops lexeme)
    (solid : lexeme.sort ≠ .finish) :
    Ready (front ++ [⟨gap, .ofList lexeme.chars⟩]) "" lexeme.rest where
  chain := by
    refine ready.follows (.inl ?_)
    rw [String.toList_ofList, ← cuts.whole, List.head?_append_of_ne_nil _ cuts.some]
  blank _ char inside := by simp at inside
  apart last found bound _ := by
    obtain rfl : (⟨gap, .ofList lexeme.chars⟩ : Piece) = last := by simpa using found
    exact stops.ends solid (by simpa using bound)

/-- The end of a source continues it. -/
theorem continue_finish {offset index : Nat} {gap : String} {before : List Node}
    {chars : List Char} {front : List Piece} (comments : Node.filledAll before = true)
    (ready : Ready (front ++ Node.piecesAll before) gap chars) :
    Token.Continue front [⟨.finish, "", offset, gap, before, index⟩] where
  spelled token inside := by
    obtain rfl := List.mem_singleton.mp inside
    exact ⟨by simp, comments, by simp⟩
  chain := by simpa [Token.pieces] using ready.follows (.inr rfl)

/-- A lexeme that becomes a token continues a source. -/
theorem continue_cons {offset index : Nat} {gap : String} {before : List Node}
    {lexeme : Lexeme} {front : List Piece} {rest : List Token}
    (comments : Node.filledAll before = true) (some : lexeme.chars ≠ []) (stops : Stops lexeme)
    (later : Token.Continue (front ++ Node.piecesAll before ++ [⟨gap, .ofList lexeme.chars⟩])
      rest) :
    Token.Continue front
      (⟨lexeme.sort, .ofList lexeme.chars, offset, gap, before, index⟩ :: rest) where
  spelled := List.forall_mem_cons.mpr
    ⟨⟨fun _ => by simpa using some, comments, by simpa using stops.bracket⟩, later.spelled⟩
  chain := by simpa [Token.pieces] using later.chain

/-- The tokens of characters continue what stands before them. The comments collected in front of
the next token are among the pieces before it. -/
theorem Tokenizes.continue {modes : List Mode} {offset index : Nat} {gap : String}
    {before : List Node} {chars : List Char} {tokens : List Token} {front : List Piece}
    (tokenizes : Tokenizes modes offset index gap before chars tokens)
    (delimited : ∀ mode ∈ modes, mode.Delimited) (comments : Node.filledAll before = true)
    (ready : Ready (front ++ Node.piecesAll before) gap chars) :
    Token.Continue front tokens := by
  induction tokenizes generalizing front with
  | finish => exact continue_finish comments ready
  | space next isSpace _ ih =>
    have some := (next?_cuts (Mode.quoted_of_delimited delimited) next).some
    exact ih delimited comments (ready.space some ((next?_stops delimited next).blank isSpace))
  | comment next sort _ _ ih =>
    have cuts := next?_cuts (Mode.quoted_of_delimited delimited) next
    have after := ready.piece cuts (next?_stops delimited next) (by simp [sort])
    refine ih delimited ?_ (by simpa [Node.piecesAll_eq, Node.pieces] using after)
    rw [Node.filledAll_iff, List.forall_mem_append]
    exact ⟨Node.filledAll_iff.mp comments, by simpa [Node.filled] using cuts.some⟩
  | token next solid _ ih =>
    have cuts := next?_cuts (Mode.quoted_of_delimited delimited) next
    have stops := next?_stops delimited next
    have after := ready.piece cuts stops solid
    refine continue_cons comments cuts.some stops
      (ih ?_ rfl (by simpa [Node.piecesAll] using after))
    split
    · exact Mode.delimited_after delimited
    · exact delimited

/-- The tokens of every source are spelled and follow each other. -/
theorem tokenize_continue (source : String) : Token.Continue [] (tokenize source) := by
  have delimited : ∀ mode ∈ [Mode.code 0], mode.Delimited := by simp [Mode.Delimited]
  have start (gap : String) (chars : List Char) : Ready ([] ++ Node.piecesAll []) gap chars :=
    ⟨.nil, by simp [Node.piecesAll], by simp [Node.piecesAll]⟩
  unfold tokenize
  split
  · exact tokenizes.continue delimited rfl (start _ _)
  · exact tokenizes.continue delimited rfl (start _ _)

end Lexer

/-! ## Nodes of a derivation -/

namespace Node

/-- Nodes have the same pieces in any role, and are as filled. -/
theorem piecesAll_inRole (role : Role) (nodes : List Node) :
    piecesAll (inRole role nodes) = piecesAll nodes ∧
      filledAll (inRole role nodes) = filledAll nodes := by
  induction nodes with
  | nil => exact ⟨rfl, rfl⟩
  | cons node rest ih =>
    rw [CaretName.inRole, List.map_cons, ← CaretName.inRole]
    split <;> simp [piecesAll, filledAll, ih]

/-- Enclosed nodes have the same pieces, and the construct around them is not empty. -/
theorem piecesAll_enclose (construct : Construct) (nodes : List Node) :
    piecesAll (enclose construct nodes) = piecesAll nodes ∧
      (filledAll nodes = true → filledAll (enclose construct nodes) = true) := by
  have parted := List.takeWhile_append_dropWhile (p := isExtra) (l := nodes)
  rcases enclose_eq construct nodes with ⟨empty, equal⟩ | ⟨first, last, front, _, equal⟩
  · rw [empty, List.append_nil] at parted
    rw [equal, parted]
    exact ⟨rfl, id⟩
  · rw [equal]
    refine ⟨?_, fun filled => ?_⟩
    · rw [piecesAll_append, piecesAll, piecesAll, pieces, List.append_nil, ← piecesAll_append,
        parted]
    · rw [← parted, filledAll_append] at filled
      have some : nodes.dropWhile isExtra ≠ [] := by
        intro none
        rw [none] at front
        contradiction
      rw [filledAll_append]
      exact ⟨filled.1, by simp [filledAll, Node.filled, filled.2, some]⟩

end Node

namespace Token

variable {token bracket : Token} {front : List Piece} {left rest : List Token}

/-- The nodes of a token have its pieces. -/
theorem piecesAll_nodes (token : Token) (kind : Kind) :
    Node.piecesAll (token.nodes kind) = token.pieces := by
  rw [nodes, Node.piecesAll_append, pieces]
  rfl

/-- The nodes of a token with a text are filled. -/
theorem Spelled.filledAll_nodes (spelled : token.Spelled) (solid : token.sort ≠ .finish)
    (kind : Kind) : Node.filledAll (token.nodes kind) = true := by
  rw [nodes, Node.filledAll_append]
  exact ⟨spelled.comments, by simpa [Node.filledAll, Node.filled, leaf] using spelled.visible solid⟩

/-- What follows a token continues what stands before it and its pieces. -/
theorem Continue.tail (continues : Continue front (token :: rest)) :
    Continue (front ++ token.pieces) rest where
  spelled other inside := continues.spelled other (List.mem_cons_of_mem _ inside)
  chain := by simpa using continues.chain

/-- What follows a token with a text continues what stands before it and the pieces of its nodes,
which are filled. -/
theorem Continue.leaf (continues : Continue front (token :: rest)) (solid : token.sort ≠ .finish)
    (kind : Kind) : Node.filledAll (token.nodes kind) = true ∧
      Continue (front ++ Node.piecesAll (token.nodes kind)) rest := by
  have spelled := continues.spelled token List.mem_cons_self
  rw [piecesAll_nodes]
  exact ⟨spelled.filledAll_nodes solid kind, continues.tail⟩

/-- The pieces of a mark that is taken apart are spelled, and what is left is made of brackets and
equality signs. -/
theorem Spelled.of_splitClosing? (sound : token.Sound) (spelled : token.Spelled)
    (split : token.splitClosing? = some (bracket, left)) : bracket.Spelled ∧
      ∀ part ∈ left, part.Spelled ∧ ∀ char ∈ part.text.toList, char = '>' ∨ char = '=' := by
  obtain ⟨mark, more, text, rfl, rfl⟩ := splitClosing?_eq_some sound split
  have brackets := spelled.bracket mark (by rw [text]; rfl)
  refine ⟨⟨by simp, spelled.comments, by simp⟩, fun part inside => ?_⟩
  by_cases none : more = []
  · simp [none] at inside
  · simp only [List.isEmpty_iff, none, if_false] at inside
    obtain rfl := List.mem_singleton.mp inside
    have others : ∀ char ∈ (String.ofList more).toList, char = '>' ∨ char = '=' :=
      fun char inside => brackets char (text ▸ List.mem_cons_of_mem _ (by simpa using inside))
    exact ⟨⟨fun _ => by simpa using none, rfl, fun _ _ => others⟩, others⟩

/-- The bracket at the front of a mark continues a source, and so does what is left of the mark. -/
theorem Continue.of_splitClosing? (sound : token.Sound)
    (split : token.splitClosing? = some (bracket, left))
    (continues : Continue front (token :: rest)) : Continue front (bracket :: (left ++ rest)) := by
  have spelled := continues.spelled token List.mem_cons_self
  obtain ⟨first, parts⟩ := spelled.of_splitClosing? sound split
  obtain ⟨mark, more, text, rfl, rfl⟩ := splitClosing?_eq_some sound split
  have brackets := spelled.bracket mark (by rw [text]; rfl)
  have others := fun other inside => continues.spelled other (List.mem_cons_of_mem token inside)
  refine ⟨List.forall_mem_cons.mpr ⟨first, List.forall_mem_append.mpr
    ⟨fun part inside => (parts part inside).1, others⟩⟩, ?_⟩
  have chain := continues.chain
  by_cases none : more = []
  · have whole : token.text = ">" := by
      rw [← String.ofList_toList (s := token.text), text, none]
    simpa [pieces, whole, none] using chain
  · simp only [List.isEmpty_iff, none, if_false]
    rw [List.flatMap_cons, pieces, List.append_assoc, ← List.append_assoc] at chain
    have parted := Piece.isChain_bracket text
      (fun char inside => brackets char (text ▸ List.mem_cons_of_mem _ inside)) chain
    simpa [pieces, Node.piecesAll] using parted

end Token

namespace Rule

variable {π : Type} {grammar : π → Rule π} {rule : Rule π} {tokens rest : List Token}
  {nodes : List Node} {front : List Piece}

/-- What a derivation leaves continues what stands before it and the pieces of its nodes, which
are filled. -/
theorem Reads.continues (endless : ∀ which, (grammar which).Endless)
    (reads : Reads grammar rule tokens nodes rest) (sound : ∀ token ∈ tokens, token.Sound)
    (here : rule.Endless) (continues : Token.Continue front tokens) :
    Node.filledAll nodes = true ∧ Token.Continue (front ++ Node.piecesAll nodes) rest := by
  induction reads generalizing front with
  | text spells | leaf spells =>
    exact continues.leaf (fun finish => by simp [Token.spells, finish] at spells) _
  | name named => exact continues.leaf (fun finish => by simp [Token.isName, finish] at named) _
  | literal sort => exact continues.leaf (by simp [sort]) _
  | closing split =>
    have own := sound _ List.mem_cons_self
    have parted := continues.of_splitClosing? own split
    obtain ⟨mark, _, _, rfl, _⟩ := Token.splitClosing?_eq_some own split
    exact parted.leaf (by simp [mark]) _
  | finish => exact absurd rfl (here _ mem_within_self)
  | seqNil | manyNil | ahead => exact ⟨rfl, by simpa [Node.piecesAll] using continues⟩
  | part body ih => exact ih sound (endless _) continues
  | seqCons first later ihFirst ihLater =>
    obtain ⟨one, others⟩ := List.forall_mem_cons.mp (endless_seq.mp here)
    obtain ⟨filled, left⟩ := ihFirst sound one continues
    obtain ⟨filled', left⟩ := ihLater (first.sound_rest sound) (endless_seq.mpr others) left
    rw [Node.filledAll_append, Node.piecesAll_append, ← List.append_assoc]
    exact ⟨⟨filled, filled'⟩, left⟩
  | choice chosen body ih => exact ih sound (endless_choice.mp here _ chosen) continues
  | manyCons first later ihFirst ihLater =>
    obtain ⟨filled, left⟩ := ihFirst sound (endless_many.mp here) continues
    obtain ⟨filled', left⟩ := ihLater (first.sound_rest sound) here left
    rw [Node.filledAll_append, Node.piecesAll_append, ← List.append_assoc]
    exact ⟨⟨filled, filled'⟩, left⟩
  | node body ih =>
    obtain ⟨filled, left⟩ := ih sound (endless_node.mp here) continues
    obtain ⟨same, enclosed⟩ := Node.piecesAll_enclose _ _
    exact ⟨enclosed filled, same ▸ left⟩
  | field body ih =>
    obtain ⟨filled, left⟩ := ih sound (endless_field.mp here) continues
    obtain ⟨same, filled'⟩ := Node.piecesAll_inRole ‹Role› ‹List Node›
    exact ⟨filled'.trans filled, same ▸ left⟩
  | only body leading ih => exact ih sound (endless_only.mp here) continues
  | seed body ih => exact ih sound (endless_grow.mp here).1 continues
  | @growth seed growths growth _ _ _ _ nodes tail base applies leading onto later ihBase ihLater =>
    obtain ⟨filled, left⟩ := ihBase sound here continues
    obtain ⟨filled', left⟩ :=
      ihLater (base.sound_rest sound) ((endless_grow.mp here).2 growth applies) left
    obtain ⟨same, enclosed⟩ := Node.piecesAll_enclose growth.construct (growth.base nodes ++ tail)
    have base : Node.piecesAll (growth.base nodes) = Node.piecesAll nodes ∧
        Node.filledAll (growth.base nodes) = Node.filledAll nodes := by
      unfold Growth.base
      split
      · exact Node.piecesAll_inRole _ _
      · exact ⟨rfl, rfl⟩
    rw [growth.apply_eq, same, Node.piecesAll_append, base.1, ← List.append_assoc]
    exact ⟨enclosed (Node.filledAll_append.mpr ⟨base.2.trans filled, filled'⟩), left⟩

end Rule

/-! ## Trees of sources -/

/-- A tree that is put together from pieces of a source. -/
structure Node.Spelled (root : Node) : Prop where
  filled : Node.filledAll root.children = true
  chain : List.IsChain Follows root.pieces

/-- The tree of a source without errors is put together from its pieces. -/
theorem Grammar.spelled_parse {source : String} (accepted : accepts source = true) :
    (parse source).Spelled := by
  obtain ⟨nodes, rest, reads, same⟩ := exists_reads accepted
  obtain ⟨declared, last, more, first, _, rfl, _⟩ := exists_of_reads_file reads
  obtain ⟨filled, left⟩ := first.continues endless_rules Lexer.tokenize_sound endless_declared
    (Lexer.tokenize_continue source)
  have spelled := left.spelled last List.mem_cons_self
  have chain := left.chain
  rw [List.nil_append, List.flatMap_cons, Token.pieces, List.append_assoc,
    ← List.append_assoc, ← Node.piecesAll_append] at chain
  rw [same]
  exact ⟨Node.filledAll_append.mpr ⟨filled, spelled.comments⟩, chain.left_of_append⟩

/-- What stands in a tree of pieces, other than the whole tree, is filled, and its pieces follow
each other. -/
theorem Node.Spelled.place {root : Node} (spelled : root.Spelled) {place : Place}
    (held : root.Holds place) :
    (place.parent?.isSome → place.node.filled = true) ∧
      Node.filledAll place.node.children = true ∧ List.IsChain Follows place.node.pieces := by
  induction held with
  | root => exact ⟨by simp [Place.root, Place.parent?], spelled.filled, spelled.chain⟩
  | @child around place held below ih =>
    obtain ⟨_, filled, chain⟩ := ih
    have inside := Place.node_mem_of_mem_children below
    have own := Node.filledAll_iff.mp filled place.node inside
    refine ⟨fun _ => own, ?_, chain.infix ?_⟩
    · exact Node.filledAll_iff.mpr fun child => Node.filled_of_mem_children own
    · rw [Node.pieces_of_children (List.ne_nil_of_mem inside), Node.piecesAll_eq]
      obtain ⟨before, after, parted⟩ := List.append_of_mem inside
      rw [parted, List.flatMap_append, List.flatMap_cons, ← List.append_assoc]
      exact List.infix_append _ _ _

/-- A child of a place in a tree of pieces is filled, and its pieces follow each other. -/
theorem Node.Spelled.child {root : Node} (spelled : root.Spelled) {around child : Place}
    (held : root.Holds around) (below : child ∈ around.children) :
    child.node.filled = true ∧ List.IsChain Follows child.node.pieces := by
  obtain ⟨filled, _, chain⟩ := spelled.place (held.child below)
  exact ⟨filled (by rw [Place.parent?_of_mem_children below]; rfl), chain⟩

end CaretName
