import CaretName.Proofs.Grammar.Plain
import CaretName.Proofs.SourceFile.Shown

/-!
# Types in two layouts

Types are shown without the layout of their source, so that a type written in two ways should be
shown in one. `SourceFile.types_rewritten` says when it is. White space between two words has to
be there, and all other white space is dropped, so types made of words and most marks are always
shown alike. But what compacts a type also keeps white space next to `?` and `&`, where it may be
there or not; there a type is shown as it was written, and `SourceFile.wildcard_as_written` has the
shortest example.
-/
namespace CaretName

open Grammar

/-- Lists with the same images are related element by element. -/
theorem forall₂_of_map_eq {α β : Type} {change : α → β} {relates : α → α → Prop}
    {xs ys : List α} (same : xs.map change = ys.map change)
    (each : ∀ x ∈ xs, ∀ y ∈ ys, change x = change y → relates x y) :
    List.Forall₂ relates xs ys := by
  induction xs generalizing ys with
  | nil =>
    obtain rfl : ys = [] := List.map_eq_nil_iff.mp same.symm
    exact .nil
  | cons x xs ih =>
    cases ys with
    | nil => contradiction
    | cons y ys =>
      obtain ⟨first, rest⟩ := List.cons.inj same
      exact .cons (each x List.mem_cons_self y List.mem_cons_self first)
        (ih rest fun x inside y inside' =>
          each x (List.mem_cons_of_mem _ inside) y (List.mem_cons_of_mem _ inside'))

/-! ## Pieces that cannot be written otherwise -/

namespace Piece

/-- Whether a piece that begins or ends like a word is set off by white space from every piece
that it could be taken for a part of, as words are. -/
def isSettled (piece : Piece) : Bool :=
  (!piece.text.toList.getLast?.any isWordlike || binds piece.text.toList) &&
    piece.text.toList.head?.all fun char => !isWordlike char || continuesIdentifier char

variable {first first' : Piece} {pieces others : List Piece}

/-- Words are settled. -/
theorem isSettled_of_word {piece : Piece} {char : Char} {rest : List Char}
    (spelled : piece.text.toList = char :: rest) (starts : startsIdentifier char = true)
    (continues : continuesIdentifier char = true) : piece.isSettled = true := by
  simp [isSettled, binds, spelled, starts, continues]

/-- Marks are settled, except for those of wildcards, of several bounds and of annotations. -/
theorem isSettled_of_mark (gap : String) : ∀ text ∈ Lexer.marks,
    text ∉ ["?", "&", "&&", "&=", "@interface"] → isSettled ⟨gap, text⟩ = true := by
  have marked : ∀ text ∈ Lexer.marks, text ∉ ["?", "&", "&&", "&=", "@interface"] →
      isSettled ⟨"", text⟩ = true := by
    decide +kernel
  exact marked

/-- Between two settled pieces where characters of words meet there is always white space. -/
theorem gap_ne_empty {next : Piece} (follows : first.Follows next)
    (settled : first.isSettled = true) (settled' : next.isSettled = true)
    (meet : first.meets next = true) : next.gap ≠ "" := by
  intro empty
  -- Without white space the next piece would be read as a part of this one.
  simp only [isSettled, Bool.and_eq_true, Bool.or_eq_true, Bool.not_eq_true'] at settled settled'
  obtain ⟨ends, starts⟩ := Bool.and_eq_true_iff.mp meet
  have bound : binds first.text.toList = true := by simpa [ends] using settled.1
  obtain ⟨char, front, wordlike⟩ := Option.any_eq_true _ _ |>.mp starts
  have apart := follows.apart bound empty char front
  have goes := settled'.2
  simp [front, wordlike, apart] at goes

/-- Two ways to write settled pieces agree about the white space that makes a difference. -/
theorem sameBreaksAfter_of_settled (same : pieces.map text = others.map text)
    (chain : List.IsChain Follows (first :: pieces))
    (chain' : List.IsChain Follows (first' :: others)) (text : first.text = first'.text)
    (settled : ∀ piece ∈ first :: pieces, piece.isSettled = true) :
    sameBreaksAfter first pieces others = true := by
  induction pieces generalizing first first' others with
  | nil => rfl
  | cons next rest ih =>
    cases others with
    | nil => rfl
    | cons next' rest' =>
      obtain ⟨sameText, sameRest⟩ := List.cons.inj same
      obtain ⟨follows, chain⟩ := List.isChain_cons_cons.mp chain
      obtain ⟨follows', chain'⟩ := List.isChain_cons_cons.mp chain'
      obtain ⟨here, later⟩ := List.forall_mem_cons.mp settled
      have there := later next List.mem_cons_self
      rw [sameBreaksAfter, ih sameRest chain chain' sameText later, Bool.and_true]
      cases meet : first.meets next with
      | false => rfl
      | true =>
        have some := gap_ne_empty follows here there meet
        have some' : next'.gap ≠ "" := by
          refine gap_ne_empty follows' ?_ ?_ ?_
          · rwa [isSettled, ← text, ← isSettled]
          · rwa [isSettled, ← sameText, ← isSettled]
          · rwa [meets, ← text, ← sameText, ← meets]
        simp [some, some']

/-- All gaps in a chain of pieces but the first one are white space. -/
theorem blank_of_isChain (chain : List.IsChain Follows pieces) :
    ∀ piece ∈ pieces.tail, ∀ char ∈ piece.gap.toList, isBlank char = true := by
  induction pieces with
  | nil => simp
  | cons first rest ih =>
    cases rest with
    | nil => simp
    | cons next rest =>
      obtain ⟨follows, chain⟩ := List.isChain_cons_cons.mp chain
      exact List.forall_mem_cons.mpr ⟨follows.blank, ih chain⟩

/-- Two ways to write settled pieces agree. -/
theorem sameBreaks_of_settled (same : pieces.map text = others.map text)
    (chain : List.IsChain Follows pieces) (chain' : List.IsChain Follows others)
    (settled : ∀ piece ∈ pieces, piece.isSettled = true) : sameBreaks pieces others = true := by
  cases pieces with
  | nil => rfl
  | cons first rest =>
    cases others with
    | nil => rfl
    | cons first' rest' =>
      obtain ⟨text, texts⟩ := List.cons.inj same
      exact sameBreaksAfter_of_settled texts chain chain' text settled

end Piece

namespace Shown

/-- Whether two ways to write the constructs of a type agree about the white space between
characters of words. -/
def SameBreaks (shown other : Shown) : Prop :=
  List.Forall₂ (fun construct construct' =>
    Piece.sameBreaks construct.node.pieces construct'.node.pieces = true)
    shown.constructs other.constructs

/-- Whether all pieces of a type are settled. -/
def Settled (shown : Shown) : Prop :=
  ∀ construct ∈ shown.constructs, ∀ piece ∈ construct.node.pieces, piece.isSettled = true

instance (shown : Shown) : Decidable shown.Settled :=
  inferInstanceAs (Decidable (∀ construct ∈ shown.constructs, ∀ piece ∈ construct.node.pieces,
    piece.isSettled = true))

variable {root root' : Node} {shown shown' : Shown}

/-- What is within a tree of pieces is filled, and its pieces follow each other. -/
theorem Within.spelled (within : shown.Within root) (spelled : root.Spelled) {construct : Place}
    (listed : construct ∈ shown.constructs) : construct.node.filled = true ∧
      List.IsChain Piece.Follows construct.node.pieces := by
  obtain ⟨around, held, below⟩ := within construct listed
  exact spelled.child held below

/-- Places that differ in their layout only have the same texts. -/
theorem texts_eq {construct construct' : Place} (same : construct.plain = construct'.plain) :
    construct.node.pieces.map Piece.text = construct'.node.pieces.map Piece.text := by
  have nodes : construct.node.plain = construct'.node.plain := congrArg Place.node same
  rw [← Node.texts_plain construct.node, nodes, Node.texts_plain]

section Layouts

variable (spelled : root.Spelled) (spelled' : root'.Spelled)

include spelled spelled'

/-- A type is shown by the same text in two layouts exactly if these agree about the white space
between characters of words. -/
theorem text_eq_iff (alike : shown.plain = shown'.plain) (within : shown.Within root)
    (within' : shown'.Within root') :
    shown.text = shown'.text ↔ shown.SameBreaks shown' := by
  obtain ⟨constructs, ending⟩ := shown
  obtain ⟨constructs', ending'⟩ := shown'
  obtain ⟨same, rfl⟩ : constructs.map Place.plain = constructs'.map Place.plain ∧
    ending = ending' := by simpa [plain] using alike
  clear alike
  rw [SameBreaks]
  induction constructs generalizing constructs' with
  | nil =>
    obtain rfl : constructs' = [] := List.map_eq_nil_iff.mp same.symm
    simp
  | cons construct rest ih =>
    cases constructs' with
    | nil => contradiction
    | cons construct' rest' =>
      obtain ⟨same, others⟩ := List.cons.inj same
      obtain ⟨filled, chain⟩ := within.spelled spelled List.mem_cons_self
      obtain ⟨filled', chain'⟩ := within'.spelled spelled' List.mem_cons_self
      -- The two texts of the first construct may be of different lengths, so the rest is compared
      -- together with them and not after them.
      have later := ih (fun other listed => within other (List.mem_cons_of_mem _ listed)) _ others
        (fun other listed => within' other (List.mem_cons_of_mem _ listed))
      rw [List.forall₂_cons, ← later, ← String.toList_inj, ← String.toList_inj]
      simp only [text, List.foldr_cons, String.toList_append, compactType, String.toList_ofList,
        Place.text, Node.text_eq filled, Node.text_eq filled']
      exact Piece.compact_joined_iff (texts_eq same) (Node.pieces_of_filled filled).2
        (Piece.blank_of_isChain chain) (Piece.blank_of_isChain chain')

/-- Types made of settled pieces agree. -/
theorem sameBreaks_of_settled (alike : shown.plain = shown'.plain) (within : shown.Within root)
    (within' : shown'.Within root') (settled : shown.Settled) : shown.SameBreaks shown' := by
  refine forall₂_of_map_eq (congrArg constructs alike)
    fun construct listed construct' listed' same => ?_
  exact Piece.sameBreaks_of_settled (texts_eq same) (within.spelled spelled listed).2
    (within'.spelled spelled' listed').2 (settled construct listed)

/-- A type that may be missing is shown alike in two layouts under the same conditions. -/
theorem text?_eq_iff {one other : Option Shown} (alike : one.map plain = other.map plain)
    (within : ∀ shown ∈ one, shown.Within root)
    (within' : ∀ shown ∈ other, shown.Within root') :
    (one.map text = other.map text ↔ Option.Rel SameBreaks one other) ∧
      ((∀ shown ∈ one, shown.Settled) → one.map text = other.map text) := by
  cases one with
  | none =>
    cases other with
    | none => exact ⟨by simp, fun _ => rfl⟩
    | some => contradiction
  | some shown =>
    cases other with
    | none => contradiction
    | some shown' =>
      have same : shown.plain = shown'.plain := Option.some.inj alike
      have exactly := text_eq_iff spelled spelled' same (within shown rfl) (within' shown' rfl)
      refine ⟨by simp [exactly], fun settled => congrArg some (exactly.mpr ?_)⟩
      exact sameBreaks_of_settled spelled spelled' same (within shown rfl) (within' shown' rfl)
        (settled shown rfl)

/-- Several types are shown alike in two layouts exactly if each of them is. -/
theorem texts_eq_iff {several several' : List Shown}
    (alike : several.map plain = several'.map plain)
    (within : ∀ shown ∈ several, shown.Within root)
    (within' : ∀ shown ∈ several', shown.Within root') :
    (several.map text = several'.map text ↔ List.Forall₂ SameBreaks several several') ∧
      ((∀ shown ∈ several, shown.Settled) → several.map text = several'.map text) := by
  have each : List.Forall₂ (fun shown shown' => shown.text = shown'.text ↔ shown.SameBreaks shown')
      several several' :=
    forall₂_of_map_eq alike fun shown listed shown' listed' same =>
      text_eq_iff spelled spelled' same (within shown listed) (within' shown' listed')
  have exactly : several.map text = several'.map text ↔
      List.Forall₂ SameBreaks several several' := by
    rw [← List.forall₂_eq_eq_eq, List.forall₂_map_left_iff, List.forall₂_map_right_iff]
    constructor
    · exact List.Forall₂.mp (fun _ _ => Iff.mp) each
    · exact List.Forall₂.mp (fun _ _ => Iff.mpr) each
  refine ⟨exactly, fun settled => exactly.mpr ?_⟩
  exact forall₂_of_map_eq alike fun shown listed shown' listed' same =>
    sameBreaks_of_settled spelled spelled' same (within shown listed) (within' shown' listed')
      (settled shown listed)

end Layouts

end Shown

/-! ## Sources in two layouts -/

/-- Two sources that are read without a repair and whose trees differ only in their layout. -/
structure Rewritten (source source' : String) : Prop where
  accepted : accepts source = true
  accepted' : accepts source' = true
  alike : (parse source).plain = (parse source').plain

namespace Rewritten

variable {source source' : String}

/-- Sources that are read without a repair can be rewritten as any source with the same tokens and
comments. -/
theorem of_tokens (accepted : accepts source = true)
    (same : (Lexer.tokenize source).map Token.plain = (Lexer.tokenize source').map Token.plain) :
    Rewritten source source' := by
  obtain ⟨accepted', alike⟩ := plain_parse accepted same
  exact ⟨accepted, accepted', alike⟩

/-- Every place of a source has its counterpart in the other one. -/
theorem exists_place (rewritten : Rewritten source source') {place : Place}
    (held : (parse source).Holds place) :
    ∃ place', (parse source').Holds place' ∧ place'.path = place.path ∧
      place'.plain = place.plain := by
  obtain ⟨place', held', same⟩ := held.exists_plain rewritten.alike
  exact ⟨place', held', by rw [← Place.path_plain, same, Place.path_plain], same⟩

end Rewritten

namespace SourceFile

variable {source source' : String}

/-- The type of a variable is shown by the same text in two layouts exactly if these agree about
the white space between characters of words. -/
theorem declaredType?_rewritten (rewritten : Rewritten source source') {name name' : Place}
    (held : (parse source).Holds name) (held' : (parse source').Holds name')
    (same : name'.plain = name.plain) :
    name'.declaredType?.isSome = name.declaredType?.isSome ∧
      (name.declaredType?.map DeclaredType.text = name'.declaredType?.map DeclaredType.text ↔
        Option.Rel Shown.SameBreaks name.shownType? name'.shownType?) ∧
      ((∀ shown ∈ name.shownType?, shown.Settled) →
        name.declaredType?.map DeclaredType.text = name'.declaredType?.map DeclaredType.text) := by
  have spelled := spelled_parse rewritten.accepted
  have spelled' := spelled_parse rewritten.accepted'
  have text := text_declaredType? (wellFormed_parse rewritten.accepted) spelled held
  have text' := text_declaredType? (wellFormed_parse rewritten.accepted') spelled' held'
  have shown : name.shownType?.map Shown.plain = name'.shownType?.map Shown.plain :=
    calc name.shownType?.map Shown.plain
      _ = name.plain.shownType? := ((Place.faithful_plain _).shownType? held trivial).symm
      _ = name'.plain.shownType? := by rw [same]
      _ = name'.shownType?.map Shown.plain := (Place.faithful_plain _).shownType? held' trivial
  constructor
  · have here := congrArg Option.isSome text
    have there := congrArg Option.isSome text'
    have between := congrArg Option.isSome shown
    simp only [Option.isSome_map] at here there between
    rw [there, ← between, here]
  · rw [text, text']
    exact Shown.text?_eq_iff spelled spelled' shown
      (fun _ found => within_of_shownType? held found)
      (fun _ found => within_of_shownType? held' found)

/-- The types of parameters are shown by the same texts in two layouts exactly if these agree about
the white space between characters of words. -/
theorem parameterTypes_rewritten (rewritten : Rewritten source source') {list list' : Place}
    (held : (parse source).Holds list) (held' : (parse source').Holds list')
    (same : list'.plain = list.plain) :
    list'.parameterTypes.length = list.parameterTypes.length ∧
      (list.parameterTypes.map TypeRef.text = list'.parameterTypes.map TypeRef.text ↔
        List.Forall₂ Shown.SameBreaks (list.parameters.filterMap Place.shownParameter?)
          (list'.parameters.filterMap Place.shownParameter?)) ∧
      ((∀ shown ∈ list.parameters.filterMap Place.shownParameter?, shown.Settled) →
        list.parameterTypes.map TypeRef.text = list'.parameterTypes.map TypeRef.text) := by
  have shown : (list.parameters.filterMap Place.shownParameter?).map Shown.plain =
      (list'.parameters.filterMap Place.shownParameter?).map Shown.plain :=
    calc (list.parameters.filterMap Place.shownParameter?).map Shown.plain
      _ = list.plain.parameters.filterMap Place.shownParameter? :=
        ((Place.faithful_plain _).shownParameters held).symm
      _ = list'.plain.parameters.filterMap Place.shownParameter? := by rw [same]
      _ = _ := (Place.faithful_plain _).shownParameters held'
  have text := Place.text_parameterTypes list
  have text' := Place.text_parameterTypes list'
  constructor
  · have here := congrArg List.length text
    have there := congrArg List.length text'
    have between := congrArg List.length shown
    simp only [List.length_map] at here there between
    rw [there, ← between, here]
  · rw [text, text']
    exact Shown.texts_eq_iff (spelled_parse rewritten.accepted)
      (spelled_parse rewritten.accepted') shown
      (fun _ listed => within_of_shownParameters held listed)
      (fun _ listed => within_of_shownParameters held' listed)

/-- In a source that is rewritten every name of a variable and every list of parameters has its
counterpart at the same path, with a type where there was one. The types are shown by the same
texts exactly if the two sources agree about the white space between characters of words in them,
and always if the types are made of settled pieces. -/
theorem types_rewritten (rewritten : Rewritten source source') :
    (∀ name, (parse source).Holds name → ∃ name', (parse source').Holds name' ∧
      name'.path = name.path ∧ name'.declaresVariable = name.declaresVariable ∧
      name'.declaredType?.isSome = name.declaredType?.isSome ∧
      (name.declaredType?.map DeclaredType.text = name'.declaredType?.map DeclaredType.text ↔
        Option.Rel Shown.SameBreaks name.shownType? name'.shownType?) ∧
      ((∀ shown ∈ name.shownType?, shown.Settled) →
        name.declaredType?.map DeclaredType.text = name'.declaredType?.map DeclaredType.text)) ∧
    ∀ list, (parse source).Holds list → ∃ list', (parse source').Holds list' ∧
      list'.path = list.path ∧ list'.parameterTypes.length = list.parameterTypes.length ∧
      (list.parameterTypes.map TypeRef.text = list'.parameterTypes.map TypeRef.text ↔
        List.Forall₂ Shown.SameBreaks (list.parameters.filterMap Place.shownParameter?)
          (list'.parameters.filterMap Place.shownParameter?)) ∧
      ((∀ shown ∈ list.parameters.filterMap Place.shownParameter?, shown.Settled) →
        list.parameterTypes.map TypeRef.text = list'.parameterTypes.map TypeRef.text) := by
  constructor
  · intro name held
    obtain ⟨name', held', path, same⟩ := rewritten.exists_place held
    have declares : name'.declaresVariable = name.declaresVariable := by
      rw [← (Place.faithful_plain _).declaresVariable held' trivial, same,
        (Place.faithful_plain _).declaresVariable held trivial]
    exact ⟨name', held', path, declares, declaredType?_rewritten rewritten held held' same⟩
  · intro list held
    obtain ⟨list', held', path, same⟩ := rewritten.exists_place held
    exact ⟨list', held', path, parameterTypes_rewritten rewritten held held' same⟩

/-- Types with as little white space as possible. -/
def tightTypes : String :=
  "class A\x7bMap<K,V>[]x;void f(java.util.List<String>...y)\x7b\x7d\x7d"

/-- The same types with white space wherever it may stand. -/
def looseTypes : String :=
  "class A \x7b Map < K , V > [ ] x ; void f ( java . util . List < String > ... y ) \x7b \x7d \x7d"

/-- A field and a parameter have the same types in both sources. -/
theorem types_rewritten_loose : Rewritten tightTypes looseTypes ∧
    (∃ name name', (parse tightTypes).Holds name ∧ (parse looseTypes).Holds name' ∧
      name'.path = name.path ∧
      name.declaredType?.map DeclaredType.text = some "Map<K, V>[]" ∧
      name'.declaredType?.map DeclaredType.text = some "Map<K, V>[]") ∧
    ∃ list list', (parse tightTypes).Holds list ∧ (parse looseTypes).Holds list' ∧
      list'.path = list.path ∧
      list.parameterTypes.map TypeRef.text = ["java.util.List<String>..."] ∧
      list'.parameterTypes.map TypeRef.text = ["java.util.List<String>..."] := by
  have found : ((accepts tightTypes && ((parse tightTypes).places []).any fun name =>
        name.declaredType?.map DeclaredType.text == some "Map<K, V>[]" &&
        decide (∀ shown ∈ name.shownType?, shown.Settled)) &&
      (accepts tightTypes && ((parse tightTypes).places []).any fun list =>
        list.parameterTypes.map TypeRef.text == ["java.util.List<String>..."] &&
        decide (∀ shown ∈ list.parameters.filterMap Place.shownParameter?, shown.Settled))) =
      true := by
    decide +kernel
  obtain ⟨field, parameter⟩ := Bool.and_eq_true_iff.mp found
  obtain ⟨accepted, name, held, declared⟩ := exists_held_of_search field
  obtain ⟨_, list, heldList, listed⟩ := exists_held_of_search parameter
  simp only [Bool.and_eq_true, beq_iff_eq, decide_eq_true_eq] at declared listed
  have rewritten : Rewritten tightTypes looseTypes := .of_tokens accepted (by decide +kernel)
  obtain ⟨names, lists⟩ := types_rewritten rewritten
  obtain ⟨name', held', path, _, _, _, alike⟩ := names name held
  obtain ⟨list', heldList', pathList, _, _, alikeList⟩ := lists list heldList
  refine ⟨rewritten, ⟨name, name', held, held', path, declared.1, ?_⟩,
    list, list', heldList, heldList', pathList, listed.1, ?_⟩
  · rw [← alike declared.2, declared.1]
  · rw [← alikeList listed.2, listed.1]

/-- A wildcard without white space after its mark. -/
def tightWildcard : String := "class A \x7b List<?extends A> x; \x7d"

/-- The same wildcard with white space. -/
def looseWildcard : String := "class A \x7b List<? extends A> x; \x7d"

/-- The two ways to write the wildcard are shown as two types. -/
theorem wildcard_as_written : Rewritten tightWildcard looseWildcard ∧
    ∃ name name', (parse tightWildcard).Holds name ∧ (parse looseWildcard).Holds name' ∧
      name'.path = name.path ∧
      (ofRoot (parse tightWildcard)).Shows name (.variable "List<?extends A>" "x") ∧
      (ofRoot (parse looseWildcard)).Shows name' (.variable "List<? extends A>" "x") := by
  have found : ((accepts tightWildcard && ((parse tightWildcard).places []).any fun name =>
        name.isName && name.path == [0, 1, 1, 2, 0] &&
        (ofRoot (parse tightWildcard)).nameElement name == .variable "List<?extends A>" "x") &&
      (accepts looseWildcard && ((parse looseWildcard).places []).any fun name =>
        name.isName && name.path == [0, 1, 1, 2, 0] &&
        (ofRoot (parse looseWildcard)).nameElement name == .variable "List<? extends A>" "x")) =
      true := by
    decide +kernel
  obtain ⟨tight, loose⟩ := Bool.and_eq_true_iff.mp found
  obtain ⟨accepted, name, held, shown⟩ := exists_held_of_search tight
  obtain ⟨accepted', name', held', shown'⟩ := exists_held_of_search loose
  simp only [Bool.and_eq_true, beq_iff_eq] at shown shown'
  obtain ⟨⟨isName, path⟩, element⟩ := shown
  obtain ⟨⟨isName', path'⟩, element'⟩ := shown'
  refine ⟨.of_tokens accepted (by decide +kernel), name, name', held, held', ?_, ?_, ?_⟩
  · rw [path, path']
  · exact (shows_name_iff (wellFormed_parse accepted) held isName).mpr element
  · exact (shows_name_iff (wellFormed_parse accepted') held' isName').mpr element'

end SourceFile

end CaretName
