import CaretName.Proofs.Grammar.Agree
import CaretName.Proofs.Grammar.Comments

/-!
# Sources with spaces for their comments

`Lexer.uncommented` writes a space for each comment of a source. What stands between two tokens is
white space then, and the tokens are the same: `Lexer.tokenize_uncommented` says so for sources
without strays, which are all that are read without a repair (`Grammar.known_of_accepts`). It goes
through the items of both sources (`Scans.joinGaps`). `Grammar.uncommented_parse` draws the
conclusion for trees.
-/
namespace CaretName

/-- The characters of a token and of what stands in front of it, with every comment written in
another way. -/
def Token.written (write : String → String) (token : Token) : List Char :=
  (Node.piecesAll token.before).flatMap (fun comment =>
    comment.gap.toList ++ (write comment.text).toList) ++ token.gap.toList ++ token.text.toList

/-- Whether a stray comes before the end of a source. -/
def Token.Strayed : List Token → Prop
  | [] => False
  | token :: rest => token.sort = .stray ∨ token.sort ≠ .finish ∧ Strayed rest

namespace Lexer

/-- A source with every comment written in another way. -/
def rewritten (write : String → String) (source : String) : String :=
  .ofList ((tokenize source).flatMap (Token.written write))

/-- A source with a space for every comment. -/
def uncommented (source : String) : String := rewritten (fun _ => " ") source

/-! ## Items -/

/-- The characters of an item, if comments are written in another way. -/
def Item.written (write : String → String) (item : Item) : List Char :=
  if item.isComment then (write (.ofList item.chars)).toList else item.chars

/-- The characters of an item, or a space for a comment. -/
def Item.blanked (item : Item) : List Char := if item.isComment then [' '] else item.chars

/-- The characters of items with a space for each comment. -/
def blanked (items : List Item) : List Char := items.flatMap Item.blanked

/-- White space as an item, if there is some. -/
def gapItems (gap : List Char) : List Item := if gap.isEmpty then [] else [⟨.finish, gap⟩]

/-- The items with white space and comments between two tokens joined to one piece of white space,
behind white space that stands in front. -/
def joinGaps (gap : List Char) : List Item → List Item
  | [] => gapItems gap
  | item :: rest =>
    if item.isSpace then joinGaps (gap ++ item.blanked) rest
    else gapItems gap ++ item :: joinGaps [] rest

/-- Whether the rules of code are in force. -/
def InCode (modes : List Mode) : Prop := ∀ quotes outer, modes ≠ .string quotes :: outer

variable {modes : List Mode} {chars gap : List Char} {lexeme : Lexeme} {items : List Item}

/-- In code, white space comes first. -/
theorem InCode.next? (inCode : InCode modes) (chars : List Char) :
    next? modes chars = if (chars.span isGap).1.isEmpty then code chars
      else some ⟨.finish, (chars.span isGap).1, (chars.span isGap).2⟩ := by
  unfold Lexer.next?
  split
  · next quotes outer => exact absurd rfl (inCode quotes outer)
  · rfl

/-- White space and comments are found in code. -/
theorem inCode_of_next? (found : next? modes chars = some lexeme) (space : lexeme.isSpace = true) :
    InCode modes := by
  rintro quotes outer rfl
  rw [isSpace_of_inString found] at space
  contradiction

/-- A comment is found as one. -/
theorem comment?_of_next? (found : next? modes chars = some lexeme)
    (comment : lexeme.isComment = true) : comment? chars = some lexeme := by
  have space : lexeme.isSpace = true := Bool.or_eq_true_iff.mpr (.inr comment)
  rw [(inCode_of_next? found space).next?] at found
  split at found
  · exact comment?_of_code found space
  · obtain rfl := Option.some.inj found
    contradiction

/-- What is left of white space and of a comment is white space. -/
theorem isGap_of_next? (found : next? modes chars = some lexeme) (space : lexeme.isSpace = true) :
    ∀ char ∈ lexeme.item.blanked, isGap char = true := by
  intro char inside
  unfold Item.blanked at inside
  split at inside
  · obtain rfl := List.mem_singleton.mp inside
    rfl
  · next noComment =>
    rw [(inCode_of_next? found space).next?] at found
    split at found
    · exact absurd (slash_of_comment? (comment?_of_code found space)).1 noComment
    · obtain rfl := Option.some.inj found
      have inside : char ∈ (chars.span isGap).1 := inside
      rw [List.span_eq_takeWhile_dropWhile] at inside
      exact List.mem_takeWhile_imp inside

/-- What becomes a token does not start with white space, in code. -/
theorem isGap_head_of_next? (inCode : InCode modes) (found : next? modes chars = some lexeme)
    (solid : lexeme.isSpace = false) : ∀ char ∈ lexeme.chars.head?, isGap char = false := by
  intro char first
  rw [inCode.next?] at found
  split at found
  · next noGap =>
    have cuts := code_cuts found
    obtain ⟨body, filled⟩ := List.head?_eq_some_iff.mp first
    rw [← cuts.whole, filled] at noGap
    simpa using noGap
  · obtain rfl := Option.some.inj found
    contradiction

/-- Spaces for the comments among items are spaces for comments. -/
theorem Scans.agree (scans : Scans modes chars items) (quoted : ∀ mode ∈ modes, mode.Quoted) :
    Agree chars (blanked items) := by
  induction scans with
  | nil => exact .nil
  | @cons modes chars lexeme items next later ih =>
    have behind := ih (Item.quoted_after quoted)
    rw [blanked, List.flatMap_cons, ← blanked]
    unfold Item.blanked
    split
    · next comment => exact .comment (comment?_of_next? next comment) behind
    · have agree := behind.append lexeme.chars
      rw [(next?_cuts quoted next).whole] at agree
      exact agree

/-- White space in front of what does not start with white space is an item of its own. -/
theorem Scans.behind_gap (scans : Scans modes chars items) (white : ∀ char ∈ gap, isGap char = true)
    (inCode : gap ≠ [] → InCode modes) (ends : gap ≠ [] → ∀ char ∈ chars.head?, isGap char = false) :
    Scans modes (gap ++ chars) (gapItems gap ++ items) := by
  cases gap with
  | nil => exact scans
  | cons first rest =>
    have cut := span_eq white (ends (by simp))
    have next : next? modes (first :: rest ++ chars) = some ⟨.finish, first :: rest, chars⟩ := by
      rw [(inCode (by simp)).next?, cut]
      rfl
    exact .cons next scans

/-- With spaces for comments, characters without strays are cut into the same items but for what is
between tokens, which is joined. Induction on the items; `gap` is what has been joined so far. -/
theorem Scans.joinGaps (scans : Scans modes chars items)
    (delimited : ∀ mode ∈ modes, mode.Delimited) (known : ∀ item ∈ items, item.sort ≠ .stray)
    (white : ∀ char ∈ gap, isGap char = true) (inCode : gap ≠ [] → InCode modes) :
    Scans modes (gap ++ blanked items) (Lexer.joinGaps gap items) := by
  induction scans generalizing gap with
  | nil => simpa [blanked, Lexer.joinGaps] using Scans.behind_gap .nil white inCode (by simp)
  | @cons modes chars lexeme items next later ih =>
    obtain ⟨here, others⟩ := List.forall_mem_cons.mp known
    have delimited' : ∀ mode ∈ lexeme.item.after modes, mode.Delimited := by
      unfold Item.after
      split
      · exact Mode.delimited_after delimited
      · exact delimited
    rw [blanked, List.flatMap_cons, ← blanked, Lexer.joinGaps]
    by_cases space : lexeme.isSpace = true
    · have same : lexeme.item.after modes = modes := by
        refine if_neg fun mark => ?_
        have mark : lexeme.sort = .mark := mark
        simp [Lexeme.isSpace, Lexeme.isComment, mark] at space
      rw [if_pos (show lexeme.item.isSpace = true from space), ← List.append_assoc]
      rw [same] at ih
      exact ih delimited others (List.forall_mem_append.mpr ⟨white, isGap_of_next? next space⟩)
        fun _ => inCode_of_next? next space
    · have solid : lexeme.isSpace = false := by simpa using space
      have kept : lexeme.item.blanked = lexeme.chars :=
        if_neg (Bool.eq_false_iff.mp (Bool.or_eq_false_iff.mp solid).2)
      have tail : Scans (lexeme.item.after modes) (blanked items) (Lexer.joinGaps [] items) :=
        @ih [] delimited' others (by simp) (by simp)
      have first := next?_eq_of_agree delimited next solid here
        (later.agree (Mode.quoted_of_delimited delimited'))
      have scanned : Scans modes (lexeme.chars ++ blanked items)
          (lexeme.item :: Lexer.joinGaps [] items) :=
        @Scans.cons _ _ ⟨lexeme.sort, lexeme.chars, blanked items⟩ _ first tail
      rw [if_neg (show ¬ lexeme.item.isSpace = true from space), kept]
      refine scanned.behind_gap white inCode fun filled char head => ?_
      have some := (next?_cuts (Mode.quoted_of_delimited delimited) next).some
      rw [List.head?_append_of_ne_nil _ some] at head
      exact isGap_head_of_next? (inCode filled) next solid char head

/-! ## Tokens -/

/-- White space in front of tokens is put together with what stands before it. -/
theorem assemble_gapItems (offset index : Nat) (gap : String) (before : List Node)
    (white : List Char) (items : List Item) :
    assemble offset index gap before (gapItems white ++ items) =
      assemble (offset + byteCount white) index (gap ++ .ofList white) before items := by
  cases white with
  | nil => simp [gapItems, byteCount]
  | cons first rest =>
    rw [gapItems, if_neg (by simp), List.singleton_append, assemble]
    rfl

/-- Items have the same tokens when what is between tokens is joined, with a space for each comment.
Induction on the items; `gap` and `before` are what stands in front of the next token, and `gap'` and
`white` the white space that they are when joined. -/
theorem assemble_joinGaps {offset offset' index : Nat} {gap gap' : String} {before : List Node}
    {white : List Char} (none : ∀ known, Node.bareAll known before = [])
    (same : ∀ known, Node.pendingAll known before ++ gap = known ++ (gap' ++ .ofList white)) :
    List.Forall₂ (fun token token' => token'.before = [] ∧ Token.SameBare token token')
      (assemble offset index gap before items)
      (assemble offset' index gap' [] (Lexer.joinGaps white items)) := by
  induction items generalizing offset offset' index gap gap' before white with
  | nil =>
    have gaps := assemble_gapItems offset' index gap' [] white []
    rw [List.append_nil] at gaps
    rw [Lexer.joinGaps, gaps]
    exact .cons ⟨rfl, rfl, rfl, rfl, none, same⟩ .nil
  | cons item rest ih =>
    rw [Lexer.joinGaps]
    by_cases finish : item.sort = .finish
    · have kept : item.blanked = item.chars := by
        simp [Item.blanked, Item.isComment, finish]
      rw [if_pos (by simp [Item.isSpace, finish]), assemble, kept]
      simp only [if_pos finish]
      refine ih none fun known => ?_
      rw [← String.append_assoc, same, String.ofList_append, String.append_assoc, String.append_assoc]
    by_cases comment : item.isComment = true
    · rw [if_pos (by simp [Item.isSpace, comment]), assemble]
      simp only [if_neg finish, if_pos comment]
      have isComment (span : Span) (text : String) : (Node.leaf (.construct
          (if item.sort == .literal .lineComment then .lineComment else .blockComment)) Option.none
          span gap text).isComment = true := by
        split <;> rfl
      refine ih (fun known => ?_) fun known => ?_
      · rw [Node.bareAll_append, none, Node.bareAll, if_pos (isComment _ _), Node.bareAll]
        rfl
      · rw [Node.pendingAll_append, Node.pendingAll, Node.pendingAll, Node.pending,
          if_pos (isComment _ _), same, Item.blanked, if_pos comment, String.ofList_append]
        simp [String.append_assoc]
    · have solid : ¬ item.isSpace = true := by simp [Item.isSpace, finish, comment]
      rw [if_neg solid, assemble_gapItems, assemble, assemble]
      simp only [if_neg finish, if_neg comment]
      exact .cons ⟨rfl, rfl, rfl, rfl, none, same⟩ (ih (fun _ => rfl) fun _ => rfl)

/-! ## Sources -/

/-- The tokens of characters behind a byte order mark, or behind nothing if there is none. -/
theorem tokenize_eq {source mark : String}
    (start : mark = "\uFEFF" ∨ mark = "" ∧ chars.head? ≠ some '\uFEFF')
    (whole : source.toList = mark.toList ++ chars) (scans : Scans [.code 0] chars items) :
    tokenize source = assemble (byteCount mark.toList) 0 mark [] items := by
  have quoted : ∀ mode ∈ [Mode.code 0], mode.Quoted := by simp [Mode.Quoted]
  unfold tokenize
  rcases start with rfl | ⟨rfl, noMark⟩
  · have whole : source.toList = '\uFEFF' :: chars := whole
    rw [whole]
    exact tokens_eq scans quoted (Nat.lt_succ_self _) _ _ _ _
  · have whole : source.toList = chars := whole
    rw [whole]
    split
    · next rest => exact absurd rfl noMark
    · exact tokens_eq scans quoted (Nat.lt_succ_self _) _ _ _ _

/-- Every source has tokens behind a byte order mark or behind nothing. -/
theorem exists_scans_tokenize (source : String) : ∃ mark chars items,
    (mark = "\uFEFF" ∨ mark = "" ∧ chars.head? ≠ some '\uFEFF') ∧
      source.toList = mark.toList ++ chars ∧ Scans [.code 0] chars items := by
  have quoted : ∀ mode ∈ [Mode.code 0], mode.Quoted := by simp [Mode.Quoted]
  by_cases marked : source.toList.head? = some '\uFEFF'
  · obtain ⟨chars, whole⟩ := List.head?_eq_some_iff.mp marked
    obtain ⟨items, scans⟩ := exists_scans [.code 0] chars quoted
    exact ⟨"\uFEFF", chars, items, .inl rfl, whole, scans⟩
  · obtain ⟨items, scans⟩ := exists_scans [.code 0] source.toList quoted
    exact ⟨"", source.toList, items, .inr ⟨rfl, marked⟩, rfl, scans⟩

/-- What tokens are written as is what their items are written as. -/
theorem written_assemble (write : String → String) (offset index : Nat) (gap : String)
    (before : List Node) (items : List Item) :
    (assemble offset index gap before items).flatMap (Token.written write) =
      (Node.piecesAll before).flatMap (fun comment =>
        comment.gap.toList ++ (write comment.text).toList) ++ gap.toList ++
          items.flatMap (Item.written write) := by
  induction items generalizing offset index gap before with
  | nil => simp [assemble, Token.written]
  | cons item rest ih =>
    rw [assemble, List.flatMap_cons]
    by_cases finish : item.sort = .finish
    · have noComment : item.isComment = false := by simp [Item.isComment, finish]
      simp only [if_pos finish, ih]
      simp [Item.written, noComment]
    by_cases comment : item.isComment = true
    · simp only [if_neg finish, if_pos comment, ih]
      simp [Item.written, comment, Node.piecesAll_eq, Node.pieces]
    · simp only [if_neg finish, if_neg comment, List.flatMap_cons, ih]
      simp [Item.written, comment, Token.written, Node.piecesAll]

/-- Items are made of all the characters. -/
theorem Scans.whole (scans : Scans modes chars items) (quoted : ∀ mode ∈ modes, mode.Quoted) :
    items.flatMap Item.chars = chars := by
  induction scans with
  | nil => rfl
  | cons next later ih =>
    rw [List.flatMap_cons, ih (Item.quoted_after quoted)]
    exact (next?_cuts quoted next).whole

/-- A source is what its tokens and comments are written as. -/
theorem rewritten_id (source : String) : rewritten id source = source := by
  obtain ⟨mark, chars, items, start, whole, scans⟩ := exists_scans_tokenize source
  have own : Item.written id = Item.chars := by
    funext item
    unfold Item.written
    split
    · exact String.toList_ofList
    · rfl
  rw [rewritten, tokenize_eq start whole scans, written_assemble, own,
    scans.whole (by simp [Mode.Quoted])]
  simp [Node.piecesAll, ← whole]

/-- A stray among items comes before the end of their tokens. -/
theorem strayed_assemble {item : Item} (inside : item ∈ items) (stray : item.sort = .stray)
    {offset index : Nat} {gap : String} {before : List Node} :
    Token.Strayed (assemble offset index gap before items) := by
  induction items generalizing offset index gap before with
  | nil => contradiction
  | cons first rest ih =>
    rw [assemble]
    by_cases finish : first.sort = .finish
    · simp only [if_pos finish]
      refine ih ((List.mem_cons.mp inside).resolve_left fun same => ?_)
      rw [same, finish] at stray
      contradiction
    by_cases comment : first.isComment = true
    · simp only [if_neg finish, if_pos comment]
      refine ih ((List.mem_cons.mp inside).resolve_left fun same => ?_)
      rw [same] at stray
      simp [Item.isComment, stray] at comment
    · simp only [if_neg finish, if_neg comment]
      rcases List.mem_cons.mp inside with rfl | later
      · exact .inl stray
      · exact .inr ⟨finish, ih later⟩

/-- A source without strays has the same tokens with a space for every comment, and nothing but
white space in front of them. -/
theorem tokenize_uncommented {source : String} (known : ¬ Token.Strayed (tokenize source)) :
    List.Forall₂ (fun token token' => token'.before = [] ∧ Token.SameBare token token')
      (tokenize source) (tokenize (uncommented source)) := by
  obtain ⟨mark, chars, items, start, whole, scans⟩ := exists_scans_tokenize source
  have made := tokenize_eq start whole scans
  have known' : ∀ item ∈ items, item.sort ≠ .stray := fun item inside stray =>
    known (made ▸ strayed_assemble inside stray)
  have scans' : Scans [.code 0] ([] ++ blanked items) (joinGaps [] items) :=
    scans.joinGaps (by simp [Mode.Delimited]) known' (by simp) (by simp)
  have spaces : Item.written (fun _ => " ") = Item.blanked := by
    funext item
    simp [Item.written, Item.blanked]
  have whole' : (uncommented source).toList = mark.toList ++ blanked items := by
    rw [uncommented, rewritten, made, written_assemble, String.toList_ofList, spaces]
    rfl
  have start' : mark = "\uFEFF" ∨ mark = "" ∧ (blanked items).head? ≠ some '\uFEFF' := by
    refine start.imp_right fun both => ⟨both.1, fun marked => both.2 ?_⟩
    obtain ⟨rest, same⟩ := List.head?_eq_some_iff.mp marked
    have agree := scans.agree (by simp [Mode.Quoted])
    rw [same] at agree
    obtain ⟨rest', rfl, _⟩ := agree.cons_right (by decide)
    rfl
  rw [made, tokenize_eq start' whole' scans']
  exact assemble_joinGaps (fun _ => rfl) fun known => by simp [Node.pendingAll]

end Lexer

/-! ## Trees -/

namespace Rule.Reads

variable {π : Type} {grammar : π → Rule π} {rule : Rule π} {tokens rest : List Token}
  {nodes : List Node}

/-- A rule reads no stray: one that comes before the end is left. -/
theorem strayed_rest (reads : Reads grammar rule tokens nodes rest)
    (strayed : Token.Strayed tokens) : Token.Strayed rest := by
  induction reads with
  | text spells | leaf spells =>
    refine (strayed.resolve_left fun stray => ?_).2
    simp [Token.spells, stray] at spells
  | name named =>
    refine (strayed.resolve_left fun stray => ?_).2
    simp [Token.isName, stray] at named
  | literal sort =>
    refine (strayed.resolve_left fun stray => ?_).2
    rw [stray] at sort
    contradiction
  | @closing token bracket left rest split =>
    unfold Token.splitClosing? at split
    split at split
    · next supplied =>
      obtain ⟨rfl, rfl⟩ := Prod.mk.inj (Option.some.inj split)
      refine (strayed.resolve_left fun stray => ?_).2
      rw [stray] at supplied
      contradiction
    · next more mark _ =>
      obtain ⟨rfl, rfl⟩ := Prod.mk.inj (Option.some.inj split)
      have later := (strayed.resolve_left fun stray => by rw [stray] at mark; contradiction).2
      split
      · exact later
      · exact .inr ⟨by simp [mark], later⟩
    · contradiction
  | finish sort =>
    rcases strayed with stray | ⟨noFinish, _⟩
    · rw [stray] at sort
      contradiction
    · exact absurd sort noFinish
  | seqNil | manyNil | ahead => exact strayed
  | part body ih | node body ih | field body ih | seed body ih => exact ih strayed
  | choice chosen body ih | only body leading ih => exact ih strayed
  | seqCons first later ihFirst ihLater | manyCons first later ihFirst ihLater =>
    exact ihLater (ihFirst strayed)
  | growth base applies leading onto later ihBase ihLater => exact ihLater (ihBase strayed)

end Rule.Reads

namespace Grammar

variable {source : String}

/-- A source that is read without a repair has no strays. -/
theorem not_strayed_of_accepts (accepted : accepts source = true) :
    ¬ Token.Strayed (Lexer.tokenize source) := by
  intro strayed
  obtain ⟨nodes, rest, reads, _⟩ := exists_reads accepted
  have left := reads.strayed_rest strayed
  obtain ⟨_, last, _, _, sort, _, rfl⟩ := exists_of_reads_file reads
  rcases left with stray | ⟨noFinish, _⟩
  · rw [stray] at sort
    contradiction
  · exact noFinish sort

/-- A source that is read without a repair is so, too, with a space for every comment, and has the
same bare tree, in which there are no comments. -/
theorem uncommented_parse (accepted : accepts source = true) :
    accepts (Lexer.uncommented source) = true ∧
      (parse source).bare "" = (parse (Lexer.uncommented source)).bare "" ∧
      (parse (Lexer.uncommented source)).Everywhere fun node => node.isComment = false := by
  have same := Lexer.tokenize_uncommented (not_strayed_of_accepts accepted)
  obtain ⟨accepted', alike⟩ := bare_parse accepted (same.imp fun _ _ both => both.2)
  have swapped : List.Forall₂ (fun token' token => token'.before = [] ∧ Token.SameBare token token')
      (Lexer.tokenize (Lexer.uncommented source)) (Lexer.tokenize source) := same.flip
  exact ⟨accepted', alike, silent_parse accepted' ((List.forall₂_and_left _ _).mp swapped).1⟩

end Grammar

end CaretName
