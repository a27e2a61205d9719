import CaretName.Grammar.Lexer
import CaretName.Grammar.Rule
import CaretName.Proofs.Tree.Layout
import Mathlib.Data.List.TakeDrop
import Mathlib.Data.List.TakeWhile

/-!
# Tokens of a source

What the grammar may rely on: every token but the last has text, words are made of the
characters of identifiers, only comments stand between tokens, and the tokens lie in order in
the source. `Lexer.tokenize_sound` and `Lexer.tokenize_lie` prove it for the tokens of every
source. Both rest on `Lexer.Cuts`: a lexeme is cut from the front of the characters, so none is
lost or made up. What holds of all tokens is proved by induction on `Lexer.Tokenizes`, the steps in
which the reader makes them.
-/
namespace CaretName

/-- A text that can be a name: it is not empty and made of characters of identifiers. -/
def IsWord (text : String) : Prop :=
  text ≠ "" ∧ ∀ char ∈ text.toList, continuesIdentifier char = true

/-- A comment between tokens, which is a leaf without a role. -/
structure Node.BareComment (node : Node) : Prop where
  isComment : node.isComment = true
  childless : node.children = []
  roleless : node.role = none

/-- What holds of each token of a source. -/
structure Token.Sound (token : Token) : Prop where
  /-- Only comments stand before the token. -/
  comments : ∀ node ∈ token.before, node.BareComment
  /-- The token takes up room, unless it is the end of the source. -/
  visible : token.sort ≠ .finish → token.span.start < token.span.stop
  /-- A word can be a name. -/
  word : token.sort = .word → IsWord token.text
  /-- The token was found in the source. -/
  found : ∀ spelling, token.sort ≠ .supplied spelling

/-- Tokens with the comments before them lie in order from one byte to another. -/
inductive Token.Lie : Nat → List Token → Nat → Prop
  /-- No tokens lie between any two bytes in order. -/
  | nil {start stop : Nat} (ordered : start ≤ stop) : Token.Lie start [] stop
  /-- A token lies after its comments and before the other tokens. -/
  | cons {start middle stop : Nat} {token : Token} {rest : List Token}
    (comments : Node.Lie start token.before middle) (after : middle ≤ token.span.start)
    (width : token.span.start ≤ token.span.stop) (later : Token.Lie token.span.stop rest stop) :
    Token.Lie start (token :: rest) stop

/-- Tokens in order lie between bytes in order. -/
theorem Token.Lie.le {start stop : Nat} {tokens : List Token}
    (lie : Token.Lie start tokens stop) : start ≤ stop := by
  induction lie with
  | nil ordered => exact ordered
  | cons comments after width later ih =>
    have room := comments.le
    omega

/-! ## Lexemes -/

/-- Bytes add up over characters. -/
theorem byteCount_cons (char : Char) (chars : List Char) :
    byteCount (char :: chars) = char.utf8Size + byteCount chars := by
  suffices shifted : ∀ count, chars.foldl (fun count char => count + char.utf8Size) count =
      count + byteCount chars by
    rw [byteCount, List.foldl_cons, shifted, Nat.zero_add]
  induction chars with
  | nil => simp [byteCount]
  | cons char chars ih =>
    intro count
    rw [byteCount, List.foldl_cons, List.foldl_cons, ih, ih]
    omega

/-- The bytes of two runs of characters add up. -/
theorem byteCount_append (first second : List Char) :
    byteCount (first ++ second) = byteCount first + byteCount second := by
  induction first with
  | nil => simp [byteCount]
  | cons char first ih =>
    rw [List.cons_append, byteCount_cons, byteCount_cons, ih, Nat.add_assoc]

/-- A text made of characters has as many bytes as they do. -/
theorem utf8ByteSize_ofList (chars : List Char) :
    (String.ofList chars).utf8ByteSize = byteCount chars := by
  induction chars with
  | nil => rfl
  | cons char chars ih =>
    rw [String.ofList_cons, String.utf8ByteSize_append, String.utf8ByteSize_singleton, ih,
      byteCount_cons]

/-- Some characters take up some bytes. -/
theorem byteCount_pos {chars : List Char} (some : chars ≠ []) : 0 < byteCount chars := by
  obtain ⟨char, rest, rfl⟩ := List.exists_cons_of_ne_nil some
  have positive := char.utf8Size_pos
  rw [byteCount_cons]
  omega

namespace Lexer

/-! ## The forms of lexemes -/

/-- The forms of comments. -/
inductive CommentForm : List Char → Lexeme → Prop
  | line {chars : List Char} : CommentForm ('/' :: '/' :: chars)
    ⟨.literal .lineComment, '/' :: '/' :: (chars.span (· != '\n')).1, (chars.span (· != '\n')).2⟩
  | block {chars body rest : List Char} (tail : blockTail chars = some (body, rest)) :
    CommentForm ('/' :: '*' :: chars) ⟨.literal .blockComment, '/' :: '*' :: body, rest⟩

/-- The forms of words. The word with a hyphen is a mark. -/
inductive WordForm : List Char → Lexeme → Prop
  | word {first : Char} {chars : List Char} (starts : startsIdentifier first = true) :
    WordForm (first :: chars) ⟨.word, ((first :: chars).span continuesIdentifier).1,
      ((first :: chars).span continuesIdentifier).2⟩
  | hyphenated {chars rest : List Char} (dropped : dropText? "non-sealed" chars = some rest)
    (ends : (rest.head?.map continuesIdentifier).getD false = false) :
    WordForm chars ⟨.mark, "non-sealed".toList, rest⟩

/-- The forms of numbers. -/
inductive NumberForm : List Char → Lexeme → Prop
  | announced {base : Nat} {first second : Char} {chars : List Char} :
    NumberForm (first :: second :: chars) (announced base first second chars)
  | plain {digit : Char} {chars : List Char} (isDigit : digit.isDigit = true) :
    NumberForm (digit :: chars) (plain (digit :: chars))
  | fraction {chars : List Char} : NumberForm ('.' :: chars) (Lexer.plain ('.' :: chars))

/-- The forms of lexemes of code other than comments and words. -/
inductive SignForm : List Char → Lexeme → Prop
  | number {chars : List Char} {lexeme : Lexeme} (found : number? chars = some lexeme) :
    SignForm chars lexeme
  | character {chars body rest : List Char} (tail : characterTail chars = some (body, rest)) :
    SignForm ('\'' :: chars) ⟨.literal .characterLiteral, '\'' :: body, rest⟩
  | quotes {chars rest : List Char} (dropped : dropText? "\"\"\"" chars = some rest) :
    SignForm chars ⟨.mark, "\"\"\"".toList, rest⟩
  | quote {chars : List Char} : SignForm ('\"' :: chars) ⟨.mark, ['\"'], chars⟩
  | mark {text : String} {chars rest : List Char} (listed : text ∈ marks)
    (dropped : dropText? text chars = some rest) : SignForm chars ⟨.mark, text.toList, rest⟩
  | stray {char : Char} {chars : List Char} : SignForm (char :: chars) ⟨.stray, [char], chars⟩

/-- The forms of lexemes of code. -/
inductive CodeForm (chars : List Char) (lexeme : Lexeme) : Prop
  | comment (found : comment? chars = some lexeme)
  | word (found : word? chars = some lexeme)
  | sign (noComment : comment? chars = none) (noWord : word? chars = none)
    (form : SignForm chars lexeme)

/-- The forms of lexemes inside a string. -/
inductive StringForm (quotes : String) : List Char → Lexeme → Prop
  | closing {chars rest : List Char} (dropped : dropText? quotes chars = some rest) :
    StringForm quotes chars ⟨.mark, quotes.toList, rest⟩
  | embedding {chars rest : List Char} (dropped : dropText? "\\\x7b" chars = some rest) :
    StringForm quotes chars ⟨.mark, "\\\x7b".toList, rest⟩
  | escape {chars : List Char} : StringForm quotes ('\\' :: chars)
    ⟨.literal .escapeSequence, '\\' :: escapeBody chars, chars.drop (escapeBody chars).length⟩
  | fragment {char : Char} {chars : List Char} {construct : Construct}
    (isFragment : construct = .stringFragment ∨ construct = .multilineStringFragment) :
    StringForm quotes (char :: chars) ⟨.literal construct,
      char :: (chars.span fun next => next != '\"' && next != '\\').1,
      (chars.span fun next => next != '\"' && next != '\\').2⟩

section Forms

variable {chars : List Char} {lexeme : Lexeme}

/-- A comment has one of the forms. -/
theorem form_of_comment? (found : comment? chars = some lexeme) : CommentForm chars lexeme := by
  unfold comment? at found
  split at found
  · obtain rfl := Option.some.inj found
    exact .line
  · obtain ⟨⟨body, rest⟩, tail, rfl⟩ := Option.map_eq_some_iff.mp found
    exact .block tail
  · contradiction

/-- A word has one of the forms. -/
theorem form_of_word? (found : word? chars = some lexeme) : WordForm chars lexeme := by
  unfold word? at found
  split at found
  · contradiction
  · next first chars =>
    split at found
    · next starts =>
      dsimp only at found
      split at found
      · next rest dropped =>
        split at found
        · obtain rfl := Option.some.inj found
          exact .word starts
        · next ends =>
          obtain rfl := Option.some.inj found
          exact .hyphenated dropped (by simpa using ends)
      · obtain rfl := Option.some.inj found
        exact .word starts
    · contradiction

/-- A number has one of the forms. -/
theorem form_of_number? (found : number? chars = some lexeme) : NumberForm chars lexeme := by
  unfold number? at found
  split at found
  · obtain rfl := Option.some.inj found
    split_ifs
    · exact .announced
    · exact .announced
    · exact .announced
    · exact .plain rfl
  · split at found
    · obtain rfl := Option.some.inj found
      exact .fraction
    · contradiction
  · split at found
    · next isDigit =>
      obtain rfl := Option.some.inj found
      exact .plain isDigit
    · contradiction
  · contradiction

/-- A lexeme of code has one of the forms. -/
theorem form_of_code (found : code chars = some lexeme) : CodeForm chars lexeme := by
  cases chars with
  | nil => simp [code] at found
  | cons char chars =>
    simp only [code, Option.orElse_eq_orElse, Option.orElse_eq_or, Option.or_eq_some_iff] at found
    rcases found with comment | ⟨noComment, word | ⟨noWord, others⟩⟩
    · exact .comment comment
    · exact .word word
    refine .sign noComment noWord ?_
    rcases others with number | ⟨-, character | ⟨-, quotes | ⟨-, quote | ⟨-, mark | ⟨-, stray⟩⟩⟩⟩⟩
    · exact .number number
    · split at character
      · next isQuote =>
        obtain ⟨⟨body, rest⟩, tail, rfl⟩ := Option.map_eq_some_iff.mp character
        obtain rfl := eq_of_beq isQuote
        exact .character tail
      · contradiction
    · obtain ⟨rest, dropped, rfl⟩ := Option.map_eq_some_iff.mp quotes
      exact .quotes dropped
    · split at quote
      · next isQuote =>
        obtain rfl := Option.some.inj quote
        obtain rfl := eq_of_beq isQuote
        exact .quote
      · contradiction
    · obtain ⟨text, listed, starts⟩ := List.exists_of_findSome?_eq_some mark
      obtain ⟨rest, dropped, rfl⟩ := Option.map_eq_some_iff.mp starts
      exact .mark listed dropped
    · obtain rfl := Option.some.inj stray
      exact .stray

/-- A lexeme inside a string has one of the forms. -/
theorem form_of_inString {quotes : String} (found : inString quotes chars = some lexeme) :
    StringForm quotes chars lexeme := by
  cases chars with
  | nil => simp [inString] at found
  | cons char chars =>
    simp only [inString, Option.orElse_eq_orElse, Option.orElse_eq_or,
      Option.or_eq_some_iff] at found
    rcases found with closed | ⟨-, opened | ⟨-, piece⟩⟩
    · obtain ⟨rest, dropped, rfl⟩ := Option.map_eq_some_iff.mp closed
      exact .closing dropped
    · obtain ⟨rest, dropped, rfl⟩ := Option.map_eq_some_iff.mp opened
      exact .embedding dropped
    · split at piece
      · next isEscape =>
        obtain rfl := Option.some.inj piece
        obtain rfl := eq_of_beq isEscape
        exact .escape
      · obtain rfl := Option.some.inj piece
        exact .fragment (by split_ifs <;> simp)

end Forms

/-! ## What lexemes are cut from -/

/-- A lexeme is cut from the front of characters: it has some, none is lost, and a word is made
of characters of identifiers. -/
structure Cuts (chars : List Char) (lexeme : Lexeme) : Prop where
  whole : lexeme.chars ++ lexeme.rest = chars
  some : lexeme.chars ≠ []
  word : lexeme.sort = .word → ∀ char ∈ lexeme.chars, continuesIdentifier char = true
  found : ∀ spelling, lexeme.sort ≠ .supplied spelling

/-- A run of characters and what follows it make up the characters. -/
theorem span_append (holds : Char → Bool) (chars : List Char) :
    (chars.span holds).1 ++ (chars.span holds).2 = chars := by
  rw [List.span_eq_takeWhile_dropWhile, List.takeWhile_append_dropWhile]

/-- An exponent and what follows it make up the characters. -/
theorem exponent_append (small large : Char) (chars : List Char) :
    (exponent small large chars).1 ++ (exponent small large chars).2 = chars := by
  unfold exponent
  split
  · rfl
  · next letter chars =>
    split
    · split
      next sign digits parted =>
        have whole : sign ++ digits = chars := by
          split at parted <;> simp only [Prod.mk.injEq] at parted <;>
            obtain ⟨rfl, rfl⟩ := parted <;> rfl
        simp only
        split
        · rfl
        · rw [← whole]
          simp
    · rfl

/-- One character and what follows it make up the characters. -/
theorem oneOf_append (letters chars : List Char) :
    (oneOf letters chars).1 ++ (oneOf letters chars).2 = chars := by
  cases chars with
  | nil => rfl
  | cons char rest =>
    rw [oneOf]
    split <;> rfl

/-- A fraction and what follows it make up the characters. -/
theorem fraction_append (base : Nat) (chars : List Char) :
    (fraction base chars).1 ++ (fraction base chars).2 = chars := by
  unfold fraction
  split
  · simp
  · rfl

/-- A pair that makes up characters keeps doing so when it is taken apart. -/
theorem append_of_eq {pair : List Char × List Char} {chars first second : List Char}
    (whole : pair.1 ++ pair.2 = chars) (parted : pair = (first, second)) :
    first ++ second = chars := by
  rw [← whole, parted]

/-- A number in a base is cut from the characters that announce it and those after them. -/
theorem announced_cuts (base : Nat) (first second : Char) (chars : List Char) :
    Cuts (first :: second :: chars) (announced base first second chars) := by
  unfold announced
  split; next digits afterDigits cutDigits =>
  split; next part afterPart cutPart =>
  split; next power afterPower cutPower =>
  dsimp only
  generalize (!part.isEmpty || !power.isEmpty) = real
  have wholeDigits := append_of_eq (span_append _ _) cutDigits
  have wholePart : part ++ afterPart = afterDigits := by
    refine append_of_eq ?_ cutPart
    split
    · exact fraction_append _ _
    · rfl
  have wholePower : power ++ afterPower = afterPart := by
    refine append_of_eq ?_ cutPower
    split
    · exact exponent_append _ _ _
    · rfl
  have wholeSuffix :=
    oneOf_append (if real = true then ['f', 'F', 'd', 'D'] else ['l', 'L']) afterPower
  exact ⟨by simp [← wholeDigits, ← wholePart, ← wholePower, wholeSuffix], by simp, by simp,
    by simp⟩

/-- A number of base ten is cut from the characters, if it has any. -/
theorem plain_cuts {chars : List Char} (some : (plain chars).chars ≠ []) :
    Cuts chars (plain chars) := by
  unfold plain at some ⊢
  split at some; next digits afterDigits cutDigits =>
  split at some; next part afterPart cutPart =>
  split at some; next power afterPower cutPower =>
  split at some; next suffix rest cutSuffix =>
  have wholeDigits := append_of_eq (span_append _ _) cutDigits
  have wholePart := append_of_eq (fraction_append _ _) cutPart
  have wholePower := append_of_eq (exponent_append _ _ _) cutPower
  have wholeSuffix := append_of_eq (oneOf_append _ _) cutSuffix
  exact ⟨by simp [← wholeDigits, ← wholePart, ← wholePower, ← wholeSuffix], some, by simp, by simp⟩

/-- A number in base ten that starts with a digit has characters. -/
theorem plain_chars_ne_nil {digit : Char} {chars : List Char} (starts : digit.isDigit = true) :
    (plain (digit :: chars)).chars ≠ [] := by
  have isDigit : isDigitOf 10 digit = true := by
    simp only [isDigitOf, Bool.or_eq_true, Bool.and_eq_true, decide_eq_true_eq]
    refine .inl (.inr ⟨starts, ?_⟩)
    simp only [Char.isDigit, Bool.and_eq_true, decide_eq_true_eq, UInt32.le_iff_toNat_le] at starts
    have upper : digit.toNat ≤ 57 := starts.2
    have zero : '0'.toNat = 48 := rfl
    omega
  simp [plain, isDigit]

/-- A number is cut from the characters. -/
theorem number_cuts {chars : List Char} {lexeme : Lexeme} (found : number? chars = some lexeme) :
    Cuts chars lexeme := by
  cases form_of_number? found with
  | announced => exact announced_cuts _ _ _ _
  | plain isDigit => exact plain_cuts (plain_chars_ne_nil isDigit)
  | fraction => exact plain_cuts (by simp [plain, isDigitOf, fraction])

/-- The rest of a character literal and what follows it make up the characters. -/
theorem characterTail_append {chars body rest : List Char}
    (found : characterTail chars = some (body, rest)) : body ++ rest = chars := by
  fun_induction characterTail chars generalizing body rest with
  | case1 escaped chars ih =>
    obtain ⟨⟨inner, after⟩, tail, same⟩ := Option.map_eq_some_iff.mp found
    simp only [Prod.mk.injEq] at same
    obtain ⟨rfl, rfl⟩ := same
    simp [ih tail]
  | case2 chars =>
    simp only [Option.some.injEq, Prod.mk.injEq] at found
    obtain ⟨rfl, rfl⟩ := found
    rfl
  | case3 => contradiction
  | case4 char chars _ _ _ ih =>
    obtain ⟨⟨inner, after⟩, tail, same⟩ := Option.map_eq_some_iff.mp found
    simp only [Prod.mk.injEq] at same
    obtain ⟨rfl, rfl⟩ := same
    simp [ih tail]
  | case5 => contradiction

/-- The rest of a block comment and what follows it make up the characters. -/
theorem blockTail_append {chars body rest : List Char}
    (found : blockTail chars = some (body, rest)) : body ++ rest = chars := by
  fun_induction blockTail chars generalizing body rest with
  | case1 chars =>
    simp only [Option.some.injEq, Prod.mk.injEq] at found
    obtain ⟨rfl, rfl⟩ := found
    rfl
  | case2 char chars _ ih =>
    obtain ⟨⟨inner, after⟩, tail, same⟩ := Option.map_eq_some_iff.mp found
    simp only [Prod.mk.injEq] at same
    obtain ⟨rfl, rfl⟩ := same
    simp [ih tail]
  | case3 => contradiction

/-- A comment is cut from the characters. -/
theorem comment_cuts {chars : List Char} {lexeme : Lexeme}
    (found : comment? chars = some lexeme) : Cuts chars lexeme := by
  cases form_of_comment? found with
  | line => exact ⟨by simp, by simp, by simp, by simp⟩
  | block tail => exact ⟨by simp [blockTail_append tail], by simp, by simp, by simp⟩

/-- A text in front of characters and what follows it make up the characters. -/
theorem dropText_append {text : String} {chars rest : List Char}
    (found : dropText? text chars = some rest) : text.toList ++ rest = chars := by
  unfold dropText? at found
  split at found
  · next isPrefix =>
    obtain rfl := Option.some.inj found
    obtain ⟨after, rfl⟩ := List.isPrefixOf_iff_prefix.mp isPrefix
    simp [← String.length_toList]
  · contradiction

/-- A mark that is not empty is cut from the characters. -/
theorem mark_cuts_of_dropText {text : String} {chars rest : List Char} (some : text ≠ "")
    (found : dropText? text chars = .some rest) : Cuts chars ⟨.mark, text.toList, rest⟩ :=
  ⟨dropText_append found, by simpa using some, by simp, by simp⟩

/-- A word is cut from the characters, and its characters may be part of a name. -/
theorem word_cuts {chars : List Char} {lexeme : Lexeme} (found : word? chars = some lexeme) :
    Cuts chars lexeme := by
  cases form_of_word? found with
  | @word first chars starts =>
    have continues : continuesIdentifier first = true := by simp [continuesIdentifier, starts]
    refine ⟨span_append _ _, by simp [continues], fun _ char inside => ?_, by simp⟩
    simp only [List.span_eq_takeWhile_dropWhile] at inside
    exact List.mem_takeWhile_imp inside
  | hyphenated dropped => exact mark_cuts_of_dropText (by decide) dropped

/-- The rest of a lexeme of code after its first character may be anything. -/
theorem code_cuts {chars : List Char} {lexeme : Lexeme} (found : code chars = some lexeme) :
    Cuts chars lexeme := by
  cases form_of_code found with
  | comment comment => exact comment_cuts comment
  | word word => exact word_cuts word
  | sign _ _ form =>
    cases form with
    | number number => exact number_cuts number
    | character tail => exact ⟨by simp [characterTail_append tail], by simp, by simp, by simp⟩
    | quotes dropped => exact mark_cuts_of_dropText (by decide) dropped
    | quote | stray => exact ⟨by simp, by simp, by simp, by simp⟩
    | mark listed dropped =>
      have filled : ∀ text ∈ marks, text ≠ "" := by decide
      exact mark_cuts_of_dropText (filled _ listed) dropped

/-- A run of bounded length at the front of characters is a prefix of them. -/
theorem upTo_starts (count : Nat) (holds : Char → Bool) (chars : List Char) :
    upTo count holds chars <+: chars :=
  (List.takeWhile_prefix _).trans (List.take_prefix _ _)

/-- The characters of an escape are the first ones. -/
theorem escapeBody_starts (chars : List Char) : escapeBody chars <+: chars := by
  unfold escapeBody
  split
  · exact List.prefix_rfl
  · next body =>
    split
    · next run rest parted =>
      have whole := append_of_eq (span_append _ _) parted
      split
      · exact ⟨_, rfl⟩
      · exact ⟨rest, by simp [← whole]⟩
    · exact ⟨_, rfl⟩
  · dsimp only
    split
    · exact List.cons_prefix_cons.mpr ⟨rfl, upTo_starts _ _ _⟩
    · exact ⟨_, rfl⟩
  · dsimp only
    split
    · exact List.cons_prefix_cons.mpr ⟨rfl, upTo_starts _ _ _⟩
    · exact ⟨_, rfl⟩
  · dsimp only
    split
    · exact ⟨_, rfl⟩
    · exact upTo_starts _ _ _

/-- A lexeme inside a string whose quotes have characters is cut from the characters. -/
theorem inString_cuts {quotes : String} {chars : List Char} {lexeme : Lexeme}
    (some : quotes ≠ "") (found : inString quotes chars = .some lexeme) : Cuts chars lexeme := by
  cases form_of_inString found with
  | closing dropped => exact mark_cuts_of_dropText some dropped
  | embedding dropped => exact mark_cuts_of_dropText (by decide) dropped
  | @escape chars =>
    have whole := List.prefix_iff_eq_append.mp (escapeBody_starts chars)
    exact ⟨by simp [whole], by simp, by simp, by simp⟩
  | fragment => exact ⟨congrArg _ (span_append _ _), by simp, by simp, by simp⟩

/-! ## All tokens of a source -/

/-- What holds of the rules of code and of those of both kinds of strings holds of all rules that
come into force after a mark. -/
theorem Mode.after_all {holds : Mode → Prop} (code : ∀ braces, holds (.code braces))
    (line : holds (.string "\"")) (block : holds (.string "\"\"\"")) {text : String}
    {modes : List Mode} (all : ∀ mode ∈ modes, holds mode) :
    ∀ mode ∈ Mode.after text modes, holds mode := by
  cases modes with
  | nil => exact all
  | cons mode outer =>
    have others : ∀ mode ∈ outer, holds mode := fun mode inside =>
      all mode (List.mem_cons_of_mem _ inside)
    cases mode with
    | string quotes =>
      simp only [Mode.after]
      split
      · exact others
      split
      · exact List.forall_mem_cons.mpr ⟨code 0, all⟩
      · exact all
    | code braces =>
      simp only [Mode.after]
      split
      · next isQuotes =>
        refine List.forall_mem_cons.mpr ⟨?_, all⟩
        rcases Bool.or_eq_true_iff.mp isQuotes with same | same
        · exact eq_of_beq same ▸ line
        · exact eq_of_beq same ▸ block
      split
      · exact List.forall_mem_cons.mpr ⟨code _, others⟩
      split
      · split
        · exact others
        · exact List.forall_mem_cons.mpr ⟨code _, others⟩
      · exact all

/-- The quotes that close a string have characters. -/
def Mode.Quoted : Mode → Prop
  | .code _ => True
  | .string quotes => quotes ≠ ""

/-- Every string entered after a mark has quotes with characters. -/
theorem Mode.quoted_after {text : String} {modes : List Mode}
    (quoted : ∀ mode ∈ modes, mode.Quoted) : ∀ mode ∈ Mode.after text modes, mode.Quoted := by
  refine Mode.after_all (fun _ => trivial) ?_ ?_ quoted <;> simp [Mode.Quoted]

/-- The next lexeme by the rules in force, white space included. -/
def next? (modes : List Mode) (chars : List Char) : Option Lexeme :=
  match modes with
  | .string quotes :: _ => inString quotes chars
  | _ =>
    let (blank, rest) := chars.span isGap
    if blank.isEmpty then code chars else some ⟨.finish, blank, rest⟩

/-- How the reader makes tokens of characters from a byte on: it stops, it collects white space or a
comment for the next token, or it makes a token of the next lexeme and what it has collected. -/
inductive Tokenizes : List Mode → Nat → Nat → String → List Node → List Char → List Token → Prop
  | finish {modes : List Mode} {offset index : Nat} {gap : String} {before : List Node}
    {chars : List Char} :
    Tokenizes modes offset index gap before chars [⟨.finish, "", offset, gap, before, index⟩]
  | space {modes : List Mode} {offset index : Nat} {gap : String} {before : List Node}
    {chars : List Char} {lexeme : Lexeme} {tokens : List Token}
    (next : next? modes chars = some lexeme) (isSpace : lexeme.sort = .finish)
    (later : Tokenizes modes (offset + byteCount lexeme.chars) index
      (gap ++ .ofList lexeme.chars) before lexeme.rest tokens) :
    Tokenizes modes offset index gap before chars tokens
  | comment {modes : List Mode} {offset index : Nat} {gap : String} {before : List Node}
    {chars : List Char} {lexeme : Lexeme} {tokens : List Token} {construct : Construct}
    (next : next? modes chars = some lexeme) (sort : lexeme.sort = .literal construct)
    (isComment : construct = .lineComment ∨ construct = .blockComment)
    (later : Tokenizes modes (offset + byteCount lexeme.chars) index "" (before ++
      [.leaf (.construct construct) none ⟨offset, offset + byteCount lexeme.chars⟩ gap
        (.ofList lexeme.chars)]) lexeme.rest tokens) :
    Tokenizes modes offset index gap before chars tokens
  | token {modes : List Mode} {offset index : Nat} {gap : String} {before : List Node}
    {chars : List Char} {lexeme : Lexeme} {tokens : List Token}
    (next : next? modes chars = some lexeme) (solid : lexeme.sort ≠ .finish)
    (later : Tokenizes
      (if lexeme.sort = .mark then Mode.after (.ofList lexeme.chars) modes else modes)
      (offset + byteCount lexeme.chars) (index + 1) "" [] lexeme.rest tokens) :
    Tokenizes modes offset index gap before chars
      (⟨lexeme.sort, .ofList lexeme.chars, offset, gap, before, index⟩ :: tokens)

/-- The reader makes tokens step by step. Induction on the fuel. -/
theorem tokenizes {fuel : Nat} {modes : List Mode} {offset index : Nat} {gap : String}
    {before : List Node} {chars : List Char} : Tokenizes modes offset index gap before chars
      (tokens fuel modes offset index gap before chars) := by
  induction fuel generalizing modes offset index gap before chars with
  | zero => exact .finish
  | succ fuel ih =>
    unfold tokens
    dsimp only
    split
    · exact .finish
    · next sort piece rest reading =>
      have next : next? modes chars = some ⟨sort, piece, rest⟩ := reading
      split
      · exact .space next rfl ih
      · exact .comment next rfl (.inl rfl) ih
      · exact .comment next rfl (.inr rfl) ih
      · exact .token next (by simp) (by rw [if_pos rfl]; exact ih)
      · next noFinish _ _ noMark =>
        exact .token next noFinish (by rw [if_neg noMark]; exact ih)

/-- The next lexeme is white space, or cut by the rules in force. -/
theorem next?_cuts {modes : List Mode} {chars : List Char} {lexeme : Lexeme}
    (quoted : ∀ mode ∈ modes, mode.Quoted) (found : next? modes chars = some lexeme) :
    Cuts chars lexeme := by
  unfold next? at found
  split at found
  · exact inString_cuts (quoted (.string _) List.mem_cons_self) found
  · dsimp only at found
    split at found
    · exact code_cuts found
    · next filled =>
      obtain rfl := Option.some.inj found
      exact ⟨span_append _ _, by simpa using filled, by simp, by simp⟩

/-- The comments collected so far are comments, and lie in order up to a byte. -/
structure Collected (start : Nat) (before : List Node) (offset : Nat) : Prop where
  comments : ∀ node ∈ before, node.BareComment
  lie : Node.Lie start before offset

/-- One more comment is collected. -/
theorem Collected.comment {start offset stop : Nat} {before : List Node} {gap text : String}
    {construct : Construct} (collected : Collected start before offset)
    (comment : construct = .lineComment ∨ construct = .blockComment) (ordered : offset ≤ stop) :
    Collected start (before ++ [.leaf (.construct construct) none ⟨offset, stop⟩ gap text])
      stop where
  comments := by
    intro node inside
    rcases List.mem_append.mp inside with earlier | last
    · exact collected.comments node earlier
    · obtain rfl := List.mem_singleton.mp last
      rcases comment with rfl | rfl <;> exact ⟨rfl, rfl, rfl⟩
  lie := collected.lie.append <|
    .cons (Nat.le_refl _) (.nil ordered) (.nil (Nat.le_refl _))

/-- A token after the comments collected before it. -/
theorem sound_and_lie_cons {start offset index stop : Nat} {sort : TokenSort} {text gap : String}
    {before : List Node} {rest : List Token} (collected : Collected start before offset)
    (visible : sort ≠ .finish → 0 < text.utf8ByteSize) (word : sort = .word → IsWord text)
    (found : ∀ spelling, sort ≠ .supplied spelling)
    (later : (∀ token ∈ rest, token.Sound) ∧
      Token.Lie (offset + text.utf8ByteSize) rest stop) :
    (∀ token ∈ ⟨sort, text, offset, gap, before, index⟩ :: rest, token.Sound) ∧
      Token.Lie start (⟨sort, text, offset, gap, before, index⟩ :: rest) stop := by
  constructor
  · refine List.forall_mem_cons.mpr ⟨⟨collected.comments, fun notEnd => ?_, word, found⟩, later.1⟩
    have room := visible notEnd
    simp only [Token.span]
    omega
  · exact .cons collected.lie (Nat.le_refl _) (Nat.le_add_right _ _) later.2

/-- The end of a source after the comments collected before it. -/
theorem sound_and_lie_finish {start offset index stop : Nat} {gap : String} {before : List Node}
    (collected : Collected start before offset) (ordered : offset ≤ stop) :
    (∀ token ∈ ([⟨.finish, "", offset, gap, before, index⟩] : List Token), token.Sound) ∧
      Token.Lie start [⟨.finish, "", offset, gap, before, index⟩] stop :=
  sound_and_lie_cons collected (by simp) (by simp) (by simp)
    ⟨by simp, .nil (by simpa using ordered)⟩

/-- The characters up to the end are those of the next lexeme and what is left. -/
theorem Cuts.offset {chars : List Char} {lexeme : Lexeme} (cuts : Cuts chars lexeme) (offset : Nat) :
    offset + byteCount chars = offset + byteCount lexeme.chars + byteCount lexeme.rest := by
  rw [← cuts.whole, byteCount_append, Nat.add_assoc]

/-- The tokens of characters are sound and lie in order, up to the end of the characters. What is
collected in front of the next token is kept in order, too. -/
theorem Tokenizes.sound_and_lie {modes : List Mode} {start offset index : Nat} {gap : String}
    {before : List Node} {chars : List Char} {tokens : List Token}
    (tokenizes : Tokenizes modes offset index gap before chars tokens)
    (quoted : ∀ mode ∈ modes, mode.Quoted) (collected : Collected start before offset) :
    (∀ token ∈ tokens, token.Sound) ∧ Token.Lie start tokens (offset + byteCount chars) := by
  induction tokenizes generalizing start with
  | finish => exact sound_and_lie_finish collected (Nat.le_add_right _ _)
  | space next _ _ ih =>
    rw [(next?_cuts quoted next).offset]
    exact ih quoted ⟨collected.comments, collected.lie.widen (Nat.le_refl _) (Nat.le_add_right _ _)⟩
  | comment next _ isComment _ ih =>
    rw [(next?_cuts quoted next).offset]
    exact ih quoted (collected.comment isComment (Nat.le_add_right _ _))
  | token next solid _ ih =>
    have cuts := next?_cuts quoted next
    refine sound_and_lie_cons collected (fun _ => ?_) (fun isWord => ?_) cuts.found ?_
    · rw [utf8ByteSize_ofList]
      exact byteCount_pos cuts.some
    · exact ⟨by simpa using cuts.some, by simpa using cuts.word isWord⟩
    · rw [utf8ByteSize_ofList, cuts.offset]
      refine ih ?_ ⟨by simp, .nil (Nat.le_refl _)⟩
      split
      · exact Mode.quoted_after quoted
      · exact quoted

/-- The tokens of every source are sound. -/
theorem tokenize_sound {source : String} : ∀ token ∈ tokenize source, token.Sound := by
  unfold tokenize
  split <;> exact (tokenizes.sound_and_lie (by simp [Mode.Quoted])
    ⟨by simp, .nil (Nat.zero_le _)⟩).1

/-- The tokens of every source lie in order from its first byte to its last. -/
theorem tokenize_lie (source : String) :
    Token.Lie 0 (tokenize source) source.utf8ByteSize := by
  have size : source.utf8ByteSize = byteCount source.toList := by
    rw [← utf8ByteSize_ofList, String.ofList_toList]
  unfold tokenize
  split
  · next chars marked =>
    rw [size, marked, byteCount_cons]
    exact (tokenizes.sound_and_lie (by simp [Mode.Quoted]) ⟨by simp, .nil (Nat.zero_le _)⟩).2
  · rw [size, ← Nat.zero_add (byteCount _)]
    exact (tokenizes.sound_and_lie (by simp [Mode.Quoted]) ⟨by simp, .nil (Nat.zero_le _)⟩).2

end Lexer

/-! ## A mark taken apart -/

/-- A mark of the source that starts with a bracket is taken apart into the bracket and, unless
it is empty, the rest of the mark. -/
theorem Token.splitClosing?_eq_some {token bracket : Token} {left : List Token}
    (sound : token.Sound) (split : token.splitClosing? = some (bracket, left)) :
    token.sort = .mark ∧ ∃ rest, token.text.toList = '>' :: rest ∧
      bracket = { token with text := ">" } ∧
      left = if rest.isEmpty then []
        else [{ token with
          text := String.ofList rest, start := token.start + 1, gap := "", before := [] }] := by
  unfold splitClosing? at split
  split at split
  · next supplied => exact absurd supplied (sound.found _)
  · next rest mark text =>
    simp only [Option.some.injEq, Prod.mk.injEq] at split
    exact ⟨mark, rest, text, split.1.symm, split.2.symm⟩
  · contradiction

/-- The bracket at the front of a mark is sound, and so is what is left of the mark. -/
theorem Token.Sound.of_splitClosing? {token bracket : Token} {left : List Token}
    (sound : token.Sound) (split : token.splitClosing? = some (bracket, left)) :
    bracket.Sound ∧ ∀ token ∈ left, token.Sound := by
  obtain ⟨mark, rest, text, rfl, rfl⟩ := Token.splitClosing?_eq_some sound split
  have notWord : token.sort ≠ .word := by simp [mark]
  refine ⟨⟨sound.comments, fun _ => ?_, fun word => absurd word notWord, sound.found⟩, ?_⟩
  · have one : (">" : String).utf8ByteSize = 1 := rfl
    simp only [Token.span, one]
    omega
  · split
    · simp
    · next filled =>
      simp only [List.mem_singleton, forall_eq]
      have room := byteCount_pos (by simpa using filled)
      refine ⟨by simp, fun _ => ?_, fun word => absurd word notWord, sound.found⟩
      simp only [Token.span, utf8ByteSize_ofList]
      omega

/-- A mark taken apart takes up the same room. -/
theorem Token.Lie.of_splitClosing? {token bracket : Token} {left rest : List Token}
    {start stop : Nat} (sound : token.Sound) (split : token.splitClosing? = some (bracket, left))
    (lie : Token.Lie start (token :: rest) stop) :
    Token.Lie start (bracket :: (left ++ rest)) stop := by
  obtain ⟨mark, more, text, rfl, rfl⟩ := Token.splitClosing?_eq_some sound split
  have one : (">" : String).utf8ByteSize = 1 := rfl
  have size : token.text.utf8ByteSize = 1 + byteCount more := by
    rw [← String.ofList_toList (s := token.text), text, utf8ByteSize_ofList, byteCount_cons]
    rfl
  cases lie with
  | cons comments after width later =>
    refine .cons comments after (Nat.le_add_right _ _) ?_
    simp only [Token.span, one, size] at later ⊢
    split
    · next empty =>
      rw [List.isEmpty_iff.mp empty] at later
      simpa [byteCount] using later
    · refine .cons (.nil (Nat.le_refl _)) (Nat.le_refl _) (Nat.le_add_right _ _) ?_
      simp only [Token.span, utf8ByteSize_ofList, Nat.add_assoc]
      exact later

end CaretName
