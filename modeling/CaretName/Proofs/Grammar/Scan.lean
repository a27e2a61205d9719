import CaretName.Proofs.Grammar.Origin

/-!
# Scanning without fuel

A source is cut into items: tokens, comments and white space. `Lexer.Scans` says which items characters
are cut into, without the fuel and the collected state of the reader, and `Lexer.assemble` puts tokens
together from items. `Lexer.tokens_eq` says that the two are what the reader does, and
`Lexer.tokenize_written` that no character of a source is lost in between.
-/
namespace CaretName

namespace Lexer

/-- A piece of a source: how it can be used, and its characters. White space counts as an end. -/
structure Item where
  sort : TokenSort
  chars : List Char

/-- The item that a lexeme is. -/
def Lexeme.item (lexeme : Lexeme) : Item := ⟨lexeme.sort, lexeme.chars⟩

/-- Whether an item is a comment. -/
def Item.isComment (item : Item) : Bool :=
  item.sort == .literal .lineComment || item.sort == .literal .blockComment

/-- Whether an item is white space or a comment. -/
def Item.isSpace (item : Item) : Bool := item.sort == .finish || item.isComment

/-- The rules in force after an item. -/
def Item.after (item : Item) (modes : List Mode) : List Mode :=
  if item.sort = .mark then Mode.after (.ofList item.chars) modes else modes

/-- Characters are cut into items, one after another. -/
inductive Scans : List Mode → List Char → List Item → Prop
  | nil {modes : List Mode} : Scans modes [] []
  | cons {modes : List Mode} {chars : List Char} {lexeme : Lexeme} {items : List Item}
    (next : next? modes chars = some lexeme)
    (later : Scans (lexeme.item.after modes) lexeme.rest items) :
    Scans modes chars (lexeme.item :: items)

/-- The tokens that items make up. White space and comments collect until the token after them. -/
def assemble : Nat → Nat → String → List Node → List Item → List Token
  | offset, index, gap, before, [] => [⟨.finish, "", offset, gap, before, index⟩]
  | offset, index, gap, before, item :: rest =>
    let text := String.ofList item.chars
    let stop := offset + byteCount item.chars
    if item.sort = .finish then assemble stop index (gap ++ text) before rest
    else if item.isComment then
      let construct : Construct :=
        if item.sort == .literal .lineComment then .lineComment else .blockComment
      assemble stop index "" (before ++ [.leaf (.construct construct) none ⟨offset, stop⟩ gap text])
        rest
    else
      ⟨item.sort, text, offset, gap, before, index⟩ :: assemble stop (index + 1) "" [] rest

variable {modes : List Mode} {chars : List Char} {lexeme : Lexeme} {items : List Item}

/-- The rules in force after an item are as quoted as those before. -/
theorem Item.quoted_after {item : Item} (quoted : ∀ mode ∈ modes, mode.Quoted) :
    ∀ mode ∈ item.after modes, mode.Quoted := by
  unfold after
  split
  · exact Mode.quoted_after quoted
  · exact quoted

/-- Some lexeme comes next as long as there are characters. -/
theorem exists_next? (char : Char) (chars : List Char) :
    ∃ lexeme, next? modes (char :: chars) = some lexeme := by
  rw [← Option.isSome_iff_exists]
  unfold next?
  split
  · simp [inString]
  · dsimp only
    split
    · simp [code]
    · rfl

/-- Nothing comes next behind the last character. -/
theorem next?_nil : next? modes [] = none := by
  unfold next?
  split <;> rfl

/-- All characters are cut into items. Induction on how many there are. -/
theorem exists_scans (modes : List Mode) (chars : List Char)
    (quoted : ∀ mode ∈ modes, mode.Quoted) : ∃ items, Scans modes chars items := by
  induction bound : chars.length using Nat.strongRecOn generalizing modes chars with
  | _ length ih =>
    cases chars with
    | nil => exact ⟨[], .nil⟩
    | cons char rest =>
      obtain ⟨lexeme, found⟩ : ∃ lexeme, next? modes (char :: rest) = some lexeme :=
        exists_next? char rest
      have cuts := next?_cuts quoted found
      have shorter : lexeme.rest.length < length := by
        have whole := congrArg List.length cuts.whole
        have some := List.length_pos_of_ne_nil cuts.some
        rw [List.length_append] at whole
        omega
      obtain ⟨items, later⟩ :=
        ih _ shorter (lexeme.item.after modes) lexeme.rest (Item.quoted_after quoted) rfl
      exact ⟨_, .cons found later⟩

/-- The reader makes of characters the tokens that are put together from their items, if it has fuel
for all of them. -/
theorem tokens_eq (scans : Scans modes chars items) (quoted : ∀ mode ∈ modes, mode.Quoted)
    {fuel : Nat} (enough : chars.length < fuel) (offset index : Nat) (gap : String)
    (before : List Node) :
    tokens fuel modes offset index gap before chars = assemble offset index gap before items := by
  induction scans generalizing fuel offset index gap before with
  | @nil modes =>
    cases fuel with
    | zero => rfl
    | succ fuel =>
      unfold tokens
      dsimp only
      split
      · rfl
      · next reading =>
        have ended : next? modes [] = none := next?_nil
        cases reading.symm.trans ended
  | @cons modes chars lexeme items next later ih =>
    have cuts := next?_cuts quoted next
    cases fuel with
    | zero => contradiction
    | succ fuel =>
      have enough' : lexeme.rest.length < fuel := by
        have whole := congrArg List.length cuts.whole
        have some := List.length_pos_of_ne_nil cuts.some
        rw [List.length_append] at whole
        omega
      have rest := @ih (Item.quoted_after quoted) fuel enough'
      unfold tokens
      dsimp only
      split
      · next reading => cases reading.symm.trans next
      · next sort piece left reading =>
        obtain rfl : (⟨sort, piece, left⟩ : Lexeme) = lexeme :=
          Option.some.inj (reading.symm.trans next)
        unfold assemble
        dsimp only [Lexeme.item] at rest ⊢
        split
        · exact rest _ _ _ _
        · exact rest _ _ _ _
        · exact rest _ _ _ _
        · exact congrArg (_ :: ·) (rest _ _ _ _)
        · next noFinish noLine noBlock noMark =>
          have meant : (⟨sort, piece⟩ : Item).isComment = false := by
            simpa [Item.isComment] using ⟨noLine, noBlock⟩
          have kept : (⟨sort, piece⟩ : Item).after modes = modes := if_neg noMark
          rw [kept] at rest
          simp only [meant, rest, if_false, Bool.false_eq_true]
          split
          · next finish => exact absurd finish noFinish
          · rfl

end Lexer

end CaretName
