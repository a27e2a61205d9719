import CaretName.Proofs.Grammar.Blanks
import CaretName.Proofs.Grammar.Contents
import CaretName.Proofs.SourceFile.Rendering
import CaretName.Proofs.Tree.Solid

/-!
# Types with comments in them

Comments mean nothing, so a source should show the same types when each of its comments is replaced
by a space.
-/
namespace CaretName

open Grammar

namespace Shown

/-- What is shown, taken from the bare tree. -/
def bare (shown : Shown) : Shown := ⟨shown.constructs.map Place.bare, shown.ending⟩

/-- The comments in the constructs that a type is put together from. -/
def comments (shown : Shown) : List Node := shown.constructs.flatMap (·.node.comments)

/-- Whether the comments in a type are kept in a text, white space aside. -/
def KeptIn (shown : Shown) (text : String) : Prop :=
  ∀ comment ∈ shown.comments, solid comment.text <:+: solid text

end Shown

namespace Place

variable {root : Node} {place : Place}

/-- A type is left open in the bare tree if it was. -/
theorem isVar_bare (wf : WellFormed root) (spelled : root.Spelled) (held : root.Holds place)
    {type : Place} (found : place.child? .type = some type) : type.bare.isVar = type.isVar := by
  obtain ⟨below, role⟩ := mem_children_of_child? found
  have meant := (held.child below).isComment_of_role wf.remarked role
  have word := Node.texts_bare_eq_singleton (pendingAt type.above)
    (wf.remarked.at_place (held.child below)) (.below_place wf.trimmed held below)
    (spelled.child held below).1 meant "var"
  rw [isVar, isVar, Bool.eq_iff_iff, beq_iff_eq, beq_iff_eq]
  exact word

/-- The first construct of a type pattern is found in the bare tree: it is the type. -/
theorem head?_constructs_bare (wf : WellFormed root) (held : root.Holds place)
    (isPattern : place.is .typePattern = true) :
    place.bare.constructs.head? = place.constructs.head?.map bare := by
  obtain ⟨type, name, split, first, _⟩ := wf.parts_typePattern held isPattern
  have parts : place.bare.constructs = place.bare.parts := by
    rw [constructs, Place.parts]
    refine List.filter_congr fun child below => ?_
    have meant : child.node.isComment = false := by
      rw [children_bare] at below
      obtain ⟨before, inside, rfl⟩ := List.mem_map.mp below
      simpa using (List.mem_filter.mp inside).2
    simp [Node.isPart, meant]
  rw [parts, parts_bare, split, first]
  rfl

/-- The name of a declared type has its text in the bare tree: it is a token. -/
theorem text_plain_bare_name (wf : WellFormed root) (held : root.Holds place)
    (declares : place.isTypeDeclaration = true) {name : Place}
    (found : place.child? .name = some name) : name.bare.node.plain.text = name.node.plain.text := by
  obtain ⟨own, named, isIdentifier⟩ := wf.exists_name held (isAny_mono declares (by decide))
  obtain rfl : own = name := Option.some.inj (named.symm.trans found)
  have childless := (wf.name_token (held.of_child? found)
    (SourceFile.isName_of_identifier isIdentifier)).1
  have bareless : own.bare.node.children = [] := by
    rw [node_bare, Node.children_bare, childless]
    rfl
  rw [Node.text_plain_of_childless childless, Node.text_plain_of_childless bareless, node_bare,
    Node.text_bare_of_childless childless]

/-- Comments do not matter for where types are found. -/
theorem faithful_bare (wf : WellFormed root) (spelled : root.Spelled) :
    Faithful root (·.node.isComment = false) bare where
  is := is_bare
  isAny := isAny_bare
  parent? := parent?_bare
  ancestors := ancestors_bare
  parts := parts_bare
  child? held := held.child?_bare wf.remarked
  same held held' := held.same_bare held' wf.remarked
  hasRole held := held.hasRole_bare wf.remarked
  keeps isIdentifier :=
    isAny_eq_false (isAny_of_is isIdentifier (List.mem_singleton_self _)) (by decide)
  isVar held := isVar_bare wf spelled held
  first := head?_constructs_bare wf
  name held declares := text_plain_bare_name wf held declares

end Place

/-! ## Texts -/

/-- The solid characters of two texts are those of one and then those of the other. -/
theorem solid_append (first second : String) :
    solid (first ++ second) = solid first ++ solid second := by
  simp [solid]

namespace Shown

variable {root root' : Node} {shown shown' : Shown}

/-- The tokens and comments that a type is put together from. -/
def leaves (shown : Shown) : List Node := shown.constructs.flatMap (·.node.leaves)

/-- The comments of a type are among its leaves. -/
theorem comments_eq (shown : Shown) : shown.comments = shown.leaves.filter (·.isComment) := by
  rw [comments, leaves, List.filter_flatMap]
  rfl

/-- The text of a type has the solid characters of its leaves and of the ending. -/
theorem solid_text (within : shown.Within root) (spelled : root.Spelled) :
    solid shown.text = shown.leaves.flatMap (fun leaf => solid leaf.text) ++ solid shown.ending := by
  obtain ⟨constructs, ending⟩ := shown
  induction constructs with
  | nil => rfl
  | cons construct rest ih =>
    have later := ih fun other listed => within other (List.mem_cons_of_mem _ listed)
    obtain ⟨filled, chain⟩ := within.spelled spelled List.mem_cons_self
    have texts := congrArg (List.flatMap solid) construct.node.texts_pieces
    rw [List.flatMap_map, List.flatMap_map] at texts
    simp only [text, leaves, List.foldr_cons, List.flatMap_cons] at later ⊢
    rw [solid_append, solid_compactType, later, Place.text, Node.text_eq filled,
      solid_joined (Piece.blank_of_isChain chain), texts, List.flatMap_append, List.append_assoc]

/-- A type without comments has its text from the bare tree. -/
theorem text_bare (within : shown.Within root) (spelled : root.Spelled)
    (remarked : root.Everywhere Node.Remarked) (none : shown.comments = []) :
    shown.bare.text = shown.text := by
  obtain ⟨constructs, ending⟩ := shown
  induction constructs with
  | nil => rfl
  | cons construct rest ih =>
    obtain ⟨here, others⟩ := List.append_eq_nil_iff.mp none
    have later := ih (fun other listed => within other (List.mem_cons_of_mem _ listed)) others
    obtain ⟨around, held, below⟩ := within construct List.mem_cons_self
    have own := Node.text_bare (Place.pendingAt construct.above) (spelled.child held below).1
      (remarked.at_place (held.child below)) here
    simp only [text, bare, List.map_cons, List.foldr_cons, Place.text, Place.node_bare] at later ⊢
    rw [later, own]

/-- The comments in a type are shown with it. -/
theorem keptIn_text (within : shown.Within root) (spelled : root.Spelled) :
    shown.KeptIn shown.text := by
  intro comment inside
  rw [comments_eq] at inside
  obtain ⟨front, back, split⟩ := List.append_of_mem (List.mem_filter.mp inside).1
  rw [solid_text within spelled, split, List.flatMap_append, List.flatMap_cons]
  refine ⟨front.flatMap (fun leaf => solid leaf.text),
    back.flatMap (fun leaf => solid leaf.text) ++ solid shown.ending, ?_⟩
  simp only [List.append_assoc]

/-- The comments in a type of a source that is read without a repair start with a slash. -/
theorem slash_of_comment {source : String} (accepted : accepts source = true)
    (within : shown.Within (parse source)) {comment : Node} (inside : comment ∈ shown.comments) :
    StartsWithSlash comment.text := by
  obtain ⟨construct, listed, found⟩ := List.mem_flatMap.mp inside
  obtain ⟨leaf, isComment⟩ := List.mem_filter.mp found
  obtain ⟨around, held, below⟩ := within construct listed
  exact (slash_of_origin ((origin_at accepted held below).leaves comment leaf) isComment).2

end Shown

/-! ## Sources without comments -/

/-- Two sources that are read without a repair. The second has no comments, and spaces where the
first has them. -/
structure Silenced (source source' : String) : Prop where
  accepted : accepts source = true
  accepted' : accepts source' = true
  alike : (parse source).bare "" = (parse source').bare ""
  silent : (parse source').Everywhere fun node => node.isComment = false

open Lexer (uncommented)

namespace Silenced

variable {source source' : String} {shown shown' : Shown}

/-- A source that is read without a repair is silenced by a space for every comment. -/
theorem of_accepts (accepted : accepts source = true) : Silenced source (uncommented source) := by
  obtain ⟨accepted', alike, silent⟩ := uncommented_parse accepted
  exact ⟨accepted, accepted', alike, silent⟩

/-- The tokens of a construct are what there is of it without comments. -/
theorem tokens_eq (silenced : Silenced source source') {around around' construct construct' : Place}
    (held : (parse source).Holds around) (below : construct ∈ around.children)
    (held' : (parse source').Holds around') (below' : construct' ∈ around'.children)
    (same : construct.bare = construct'.bare) :
    construct.node.tokens.map Node.text = construct'.node.leaves.map Node.text := by
  have wf := wellFormed_parse silenced.accepted
  have wf' := wellFormed_parse silenced.accepted'
  have silent := silenced.silent.at_place (held'.child below')
  have nodes : construct.node.bare _ = construct'.node.bare _ := congrArg Place.node same
  have meant : construct.node.isComment = false := by
    rw [← construct.node.isComment_bare, nodes, Node.isComment_bare]
    exact silent.here
  have tokens := Node.leaves_bare (Place.pendingAt construct.above)
    (wf.remarked.at_place (held.child below)) meant
  have tokens' := Node.leaves_bare (Place.pendingAt construct'.above)
    (wf'.remarked.at_place (held'.child below')) silent.here
  have none : construct'.node.comments = [] :=
    List.filter_eq_nil_iff.mpr fun leaf inside => by simp [silent.leaves leaf inside]
  rw [← tokens, nodes, tokens', Node.tokens_of_commentless none]

/-- The tokens of a type are what there is of it without comments. -/
theorem leaves_eq (silenced : Silenced source source') (within : shown.Within (parse source))
    (within' : shown'.Within (parse source')) (same : shown.bare = shown'.bare) :
    (shown.leaves.filter (!·.isComment)).map Node.text = shown'.leaves.map Node.text := by
  obtain ⟨constructs, ending⟩ := shown
  obtain ⟨constructs', ending'⟩ := shown'
  have alike : constructs.map Place.bare = constructs'.map Place.bare :=
    congrArg Shown.constructs same
  clear same
  induction constructs generalizing constructs' with
  | nil =>
    obtain rfl : constructs' = [] := List.map_eq_nil_iff.mp alike.symm
    rfl
  | cons construct rest ih =>
    cases constructs' with
    | nil => contradiction
    | cons construct' rest' =>
      obtain ⟨first, others⟩ := List.cons.inj alike
      obtain ⟨around, held, below⟩ := within construct List.mem_cons_self
      obtain ⟨around', held', below'⟩ := within' construct' List.mem_cons_self
      have later := ih (fun other listed => within other (List.mem_cons_of_mem _ listed)) _
        (fun other listed => within' other (List.mem_cons_of_mem _ listed)) others
      have here := silenced.tokens_eq held below held' below' first
      simp only [Shown.leaves, List.flatMap_cons, List.filter_append, List.map_append] at later ⊢
      rw [later, ← here, Node.tokens]

/-- A type is shown by the same text without comments exactly if there are none in it. -/
theorem text_eq_iff (silenced : Silenced source source') (within : shown.Within (parse source))
    (within' : shown'.Within (parse source')) (same : shown.bare = shown'.bare) :
    shown.text = shown'.text ↔ shown.comments = [] := by
  have spelled := spelled_parse silenced.accepted
  have spelled' := spelled_parse silenced.accepted'
  have ending : shown.bare.ending = shown'.bare.ending := congrArg Shown.ending same
  have ending : shown.ending = shown'.ending := ending
  constructor
  · intro texts
    have all := shown.solid_text within spelled
    have tokens := shown'.solid_text within' spelled'
    have leaves := congrArg (List.flatMap solid) (silenced.leaves_eq within within' same)
    rw [List.flatMap_map, List.flatMap_map] at leaves
    rw [texts, tokens, ending, List.append_cancel_right_eq, ← leaves] at all
    -- The comments would add to the characters of the tokens.
    have parts := (List.filter_append_perm (fun leaf : Node => leaf.isComment) shown.leaves).flatMap_right
      fun leaf => solid leaf.text
    have length := parts.length_eq
    rw [List.flatMap_append, List.length_append, ← all, ← shown.comments_eq] at length
    refine List.eq_nil_iff_forall_not_mem.mpr fun comment inside => ?_
    have none : shown.comments.flatMap (fun leaf => solid leaf.text) = [] :=
      List.eq_nil_of_length_eq_zero (by omega)
    have slash := Shown.slash_of_comment silenced.accepted within inside
    have visible : '/' ∈ solid comment.text :=
      List.mem_filter.mpr ⟨List.mem_of_head? slash, by decide⟩
    rw [List.flatMap_eq_nil_iff.mp none comment inside] at visible
    contradiction
  · intro none
    have none' : shown'.comments = [] := by
      rw [Shown.comments, List.flatMap_eq_nil_iff]
      intro construct listed
      obtain ⟨around, held, below⟩ := within' construct listed
      have silent := silenced.silent.at_place (held.child below)
      exact List.filter_eq_nil_iff.mpr fun leaf inside => by simp [silent.leaves leaf inside]
    have wf := wellFormed_parse silenced.accepted
    have wf' := wellFormed_parse silenced.accepted'
    rw [← Shown.text_bare within spelled wf.remarked none, same,
      Shown.text_bare within' spelled' wf'.remarked none']

/-- Every place of the first source that is no comment has its counterpart in the second. -/
theorem exists_place (silenced : Silenced source source') {place : Place}
    (held : (parse source).Holds place) (meant : place.node.isComment = false) :
    ∃ place', (parse source').Holds place' ∧ place'.bare = place.bare :=
  held.exists_bare (wellFormed_parse silenced.accepted).remarked silenced.alike meant

end Silenced

namespace SourceFile

variable {source source' : String}

/-- The type of a variable is shown by the same text without comments exactly if there are none in
it. -/
theorem declaredType?_silenced (silenced : Silenced source source') {name name' : Place}
    (held : (parse source).Holds name) (held' : (parse source').Holds name')
    (meant : name.node.isComment = false) (same : name'.bare = name.bare) :
    name'.declaresVariable = name.declaresVariable ∧
      name'.declaredType?.isSome = name.declaredType?.isSome ∧
      (name.declaredType?.map DeclaredType.text = name'.declaredType?.map DeclaredType.text ↔
        ∀ shown ∈ name.shownType?, shown.comments = []) := by
  have wf := wellFormed_parse silenced.accepted
  have wf' := wellFormed_parse silenced.accepted'
  have spelled := spelled_parse silenced.accepted
  have spelled' := spelled_parse silenced.accepted'
  have meant' := (silenced.silent.at_place held').here
  have faithful := Place.faithful_bare wf spelled
  have faithful' := Place.faithful_bare wf' spelled'
  have shown : name.shownType?.map Shown.bare = name'.shownType?.map Shown.bare :=
    calc name.shownType?.map Shown.bare
      _ = name.bare.shownType? := (faithful.shownType? held meant).symm
      _ = name'.bare.shownType? := by rw [same]
      _ = name'.shownType?.map Shown.bare := faithful'.shownType? held' meant'
  have between := congrArg Option.isSome shown
  have text := text_declaredType? wf spelled held
  have text' := text_declaredType? wf' spelled' held'
  have here := congrArg Option.isSome text
  have there := congrArg Option.isSome text'
  simp only [Option.isSome_map] at here there between
  refine ⟨?_, by rw [there, ← between, here], ?_⟩
  · rw [← faithful'.declaresVariable held' meant', same, faithful.declaresVariable held meant]
  · rw [text, text']
    cases found : name.shownType? with
    | none =>
      cases found' : name'.shownType? with
      | none => simp
      | some => simp [found, found'] at between
    | some one =>
      cases found' : name'.shownType? with
      | none => simp [found, found'] at between
      | some other =>
        have alike : one.bare = other.bare := by simpa [found, found'] using shown
        have exactly := silenced.text_eq_iff (within_of_shownType? held found)
          (within_of_shownType? held' found') alike
        simpa using exactly

/-- The types of parameters are shown by the same texts without comments exactly if there are none
in them. -/
theorem parameterTypes_silenced (silenced : Silenced source source') {list list' : Place}
    (held : (parse source).Holds list) (held' : (parse source').Holds list')
    (same : list'.bare = list.bare) :
    list'.parameterTypes.length = list.parameterTypes.length ∧
      (list.parameterTypes.map TypeRef.text = list'.parameterTypes.map TypeRef.text ↔
        ∀ shown ∈ list.parameters.filterMap Place.shownParameter?, shown.comments = []) := by
  have faithful := Place.faithful_bare (wellFormed_parse silenced.accepted)
    (spelled_parse silenced.accepted)
  have faithful' := Place.faithful_bare (wellFormed_parse silenced.accepted')
    (spelled_parse silenced.accepted')
  have alike : (list.parameters.filterMap Place.shownParameter?).map Shown.bare =
      (list'.parameters.filterMap Place.shownParameter?).map Shown.bare :=
    calc (list.parameters.filterMap Place.shownParameter?).map Shown.bare
      _ = list.bare.parameters.filterMap Place.shownParameter? :=
        (faithful.shownParameters held).symm
      _ = list'.bare.parameters.filterMap Place.shownParameter? := by rw [same]
      _ = _ := faithful'.shownParameters held'
  have text := Place.text_parameterTypes list
  have text' := Place.text_parameterTypes list'
  constructor
  · have here := congrArg List.length text
    have there := congrArg List.length text'
    have between := congrArg List.length alike
    simp only [List.length_map] at here there between
    rw [there, ← between, here]
  · have each := forall₂_of_map_eq alike fun one listed other listed' same =>
      silenced.text_eq_iff (within_of_shownParameters held listed)
        (within_of_shownParameters held' listed') same
    rw [text, text']
    generalize list.parameters.filterMap Place.shownParameter? = several,
      list'.parameters.filterMap Place.shownParameter? = several' at each
    induction each with
    | nil => simp
    | cons first _ ih => simp [first, ih]

/-- The comments in the type of a variable are shown with it. -/
theorem keptIn_declaredType? (accepted : accepts source = true) {name : Place}
    (held : (parse source).Holds name) :
    ∀ type ∈ name.declaredType?, ∀ shown ∈ name.shownType?, shown.KeptIn type.text := by
  intro type found shown meant
  have spelled := spelled_parse accepted
  have text := text_declaredType? (wellFormed_parse accepted) spelled held
  rw [Option.mem_def.mp found, Option.mem_def.mp meant] at text
  rw [show type.text = shown.text from Option.some.inj text]
  exact Shown.keptIn_text (within_of_shownType? held meant) spelled

/-- The comments in the types of parameters are shown with them. -/
theorem keptIn_parameterTypes (accepted : accepts source = true) {list : Place}
    (held : (parse source).Holds list) :
    List.Forall₂ (fun shown type => Shown.KeptIn shown (TypeRef.text type))
      (list.parameters.filterMap Place.shownParameter?) list.parameterTypes := by
  have each : List.Forall₂ Shown.KeptIn (list.parameters.filterMap Place.shownParameter?)
      ((list.parameters.filterMap Place.shownParameter?).map Shown.text) := by
    rw [List.forall₂_map_right_iff, List.forall₂_same]
    exact fun shown listed =>
      Shown.keptIn_text (within_of_shownParameters held listed) (spelled_parse accepted)
  rwa [← Place.text_parameterTypes, List.forall₂_map_right_iff] at each

/-- A source that is read without a repair is so, too, with a space for every comment. Every name of
a variable and every list of parameters has its counterpart then, with a type where there was one.
The types are shown by the same texts exactly if there are no comments in them: those that there are
stay in the texts. -/
theorem types_uncommented (accepted : accepts source = true) :
    accepts (uncommented source) = true ∧
    (∀ name, (parse source).Holds name → name.node.isComment = false →
      ∃ name', (parse (uncommented source)).Holds name' ∧ name'.bare = name.bare ∧
        name'.declaresVariable = name.declaresVariable ∧
        name'.declaredType?.isSome = name.declaredType?.isSome ∧
        (name.declaredType?.map DeclaredType.text = name'.declaredType?.map DeclaredType.text ↔
          ∀ shown ∈ name.shownType?, shown.comments = []) ∧
        ∀ type ∈ name.declaredType?, ∀ shown ∈ name.shownType?, shown.KeptIn type.text) ∧
    ∀ list, (parse source).Holds list → list.node.isComment = false →
      ∃ list', (parse (uncommented source)).Holds list' ∧ list'.bare = list.bare ∧
        list'.parameterTypes.length = list.parameterTypes.length ∧
        (list.parameterTypes.map TypeRef.text = list'.parameterTypes.map TypeRef.text ↔
          ∀ shown ∈ list.parameters.filterMap Place.shownParameter?, shown.comments = []) ∧
        List.Forall₂ (fun shown type => Shown.KeptIn shown (TypeRef.text type))
          (list.parameters.filterMap Place.shownParameter?) list.parameterTypes := by
  have silenced := Silenced.of_accepts accepted
  refine ⟨silenced.accepted', fun name held meant => ?_, fun list held meant => ?_⟩
  · obtain ⟨name', held', same⟩ := silenced.exists_place held meant
    obtain ⟨declares, typed, exactly⟩ := declaredType?_silenced silenced held held' meant same
    exact ⟨name', held', same, declares, typed, exactly, keptIn_declaredType? accepted held⟩
  · obtain ⟨list', held', same⟩ := silenced.exists_place held meant
    obtain ⟨length, exactly⟩ := parameterTypes_silenced silenced held held' same
    exact ⟨list', held', same, length, exactly, keptIn_parameterTypes accepted held⟩

/-- A source with comments around types, but in none. -/
def remarkedTypes : String :=
  "class A \x7b /* a */ Map<K, V> /* b */ x; // c\n" ++
    "void f(final /* d */ int... /* e */ y) \x7b \x7d \x7d"

/-- Its types are shown as without the comments. -/
theorem types_uncommented_remarked : accepts remarkedTypes = true ∧
    (∃ name name', (parse remarkedTypes).Holds name ∧
      (parse (uncommented remarkedTypes)).Holds name' ∧ name'.bare = name.bare ∧
      name.declaredType?.map DeclaredType.text = some "Map<K, V>" ∧
      name'.declaredType?.map DeclaredType.text = some "Map<K, V>") ∧
    ∃ list list', (parse remarkedTypes).Holds list ∧
      (parse (uncommented remarkedTypes)).Holds list' ∧ list'.bare = list.bare ∧
      list.parameterTypes.map TypeRef.text = ["int..."] ∧
      list'.parameterTypes.map TypeRef.text = ["int..."] := by
  have found : ((accepts remarkedTypes && ((parse remarkedTypes).places []).any fun name =>
        !name.node.isComment &&
        name.declaredType?.map DeclaredType.text == some "Map<K, V>" &&
        name.shownType?.toList.all (·.comments.isEmpty)) &&
      (accepts remarkedTypes && ((parse remarkedTypes).places []).any fun list =>
        !list.node.isComment &&
        list.parameterTypes.map TypeRef.text == ["int..."] &&
        (list.parameters.filterMap Place.shownParameter?).all (·.comments.isEmpty))) =
      true := by
    decide +kernel
  obtain ⟨field, parameter⟩ := Bool.and_eq_true_iff.mp found
  obtain ⟨accepted, name, held, declared⟩ := exists_held_of_search field
  obtain ⟨_, list, heldList, listed⟩ := exists_held_of_search parameter
  simp only [Bool.and_eq_true, Bool.not_eq_true', beq_iff_eq, List.all_eq_true, Option.mem_toList,
    List.isEmpty_iff] at declared listed
  obtain ⟨_, names, lists⟩ := types_uncommented accepted
  obtain ⟨name', held', same, _, _, exactly, _⟩ := names name held declared.1.1
  obtain ⟨list', heldList', sameList, _, exactlyList, _⟩ := lists list heldList listed.1.1
  refine ⟨accepted, ⟨name, name', held, held', same, declared.1.2, ?_⟩,
    list, list', heldList, heldList', sameList, listed.1.2, ?_⟩
  · rw [← exactly.mpr declared.2, declared.1.2]
  · rw [← exactlyList.mpr listed.2, listed.1.2]

/-- A source with a comment in a type. -/
def remarkedArgument : String := "class A \x7b List</* c */ String> f; \x7d"

/-- The comment is shown with the type, which is another one without it. -/
theorem comment_in_type : accepts remarkedArgument = true ∧
    uncommented remarkedArgument = "class A \x7b List<  String> f; \x7d" ∧
    ∃ name name', (parse remarkedArgument).Holds name ∧
      (parse (uncommented remarkedArgument)).Holds name' ∧ name'.path = name.path ∧
      (ofRoot (parse remarkedArgument)).Shows name (.variable "List</*c*/String>" "f") ∧
      (ofRoot (parse (uncommented remarkedArgument))).Shows name' (.variable "List<String>" "f") := by
  have found : ((accepts remarkedArgument && ((parse remarkedArgument).places []).any fun name =>
        name.isName && name.path == [0, 1, 1, 2, 0] &&
        (ofRoot (parse remarkedArgument)).nameElement name == .variable "List</*c*/String>" "f") &&
      (accepts (uncommented remarkedArgument) &&
        ((parse (uncommented remarkedArgument)).places []).any fun name =>
          name.isName && name.path == [0, 1, 1, 2, 0] &&
          (ofRoot (parse (uncommented remarkedArgument))).nameElement name ==
            .variable "List<String>" "f")) = true := by
    decide +kernel
  obtain ⟨remarked, bare⟩ := Bool.and_eq_true_iff.mp found
  obtain ⟨accepted, name, held, shown⟩ := exists_held_of_search remarked
  obtain ⟨accepted', name', held', shown'⟩ := exists_held_of_search bare
  simp only [Bool.and_eq_true, beq_iff_eq] at shown shown'
  obtain ⟨⟨isName, path⟩, element⟩ := shown
  obtain ⟨⟨isName', path'⟩, element'⟩ := shown'
  refine ⟨accepted, by decide +kernel, name, name', held, held', by rw [path, path'], ?_, ?_⟩
  · exact (shows_name_iff (wellFormed_parse accepted) held isName).mpr element
  · exact (shows_name_iff (wellFormed_parse accepted') held' isName').mpr element'

end SourceFile

end CaretName
