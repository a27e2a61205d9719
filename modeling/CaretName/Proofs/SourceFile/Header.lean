import CaretName.Proofs.Grammar.Apart
import CaretName.Proofs.Grammar.Nesting
import CaretName.Proofs.Grammar.Paths
import CaretName.Proofs.SourceFile.Fidelity
import CaretName.Proofs.SourceFile.Identity
import CaretName.Proofs.SourceFile.Rendering
import CaretName.Proofs.Tree.Solid

/-!
# The header of a file

The header of a file is read off the texts of the names in it, without their white space. Such a
name is its identifiers joined by dots unless there is a comment inside it, which stays where it is.
`Header.ofRoot_parse` says what the package and the imports of a file are, and
`Header.package_with_comment` has the shortest package that comes out wrong.
-/
namespace CaretName

open Grammar

namespace Place

/-! ## Dotted names -/

/-- The identifiers of a dotted name, joined by dots. -/
def dotted (name : Place) : String := ".".intercalate (name.segments.map text)

/-- The last identifier of a dotted name. -/
def lastName? (name : Place) : Option String := name.segments.getLast?.map text

/-- Whether a place is the dotted name that a declaration in the header of a file is about. -/
def Names (declaration name : Place) : Prop :=
  name ∈ declaration.children ∧ name.isAny pathConstructs = true

/-- Whether a place is an import of one type: neither of static members nor of all types of a
package. -/
def importsType (place : Place) : Bool :=
  place.is .importDeclaration &&
    !place.children.any fun child => child.isMark "static" || child.is .asterisk

/-- A longer list is joined to the last name by one more dot. -/
theorem intercalate_concat {names : List String} (some : names ≠ []) (last : String) :
    ".".intercalate (names ++ [last]) = ".".intercalate names ++ "." ++ last := by
  rw [← String.toList_inj]
  simp only [String.toList_append, String.toList_intercalate, List.map_append, List.map_cons,
    List.map_nil]
  have chars : names.map String.toList ≠ [] := by simpa using some
  generalize names.map String.toList = parts at chars
  induction parts with
  | nil => contradiction
  | cons part rest ih =>
    cases rest with
    | nil => simp [List.intercalate]
    | cons next rest =>
      have later := ih (by simp)
      simp only [List.intercalate, List.cons_append, List.intersperse_cons_cons,
        List.flatten_cons] at later ⊢
      rw [later]
      simp only [List.append_assoc]

/-- What follows the last dot of a text is its last segment. -/
theorem lastSegment_append {front last : String} (dotless : '.' ∉ last.toList) :
    lastSegment (front ++ "." ++ last) = last := by
  have dot : ("." : String).toList = ['.'] := rfl
  have other : ∀ char ∈ last.toList.reverse, (char != '.') = true := by
    intro char inside
    rw [bne_iff_ne]
    rintro rfl
    exact dotless (List.mem_reverse.mp inside)
  rw [lastSegment, String.toList_append, String.toList_append, dot, List.reverse_append,
    List.takeWhile_append_of_pos other, List.reverse_append]
  simp

/-- A text without dots is its own last segment. -/
theorem lastSegment_of_dotless {text : String} (dotless : '.' ∉ text.toList) :
    lastSegment text = text := by
  have other : ∀ char ∈ text.toList.reverse, (char != '.') = true := by
    intro char inside
    rw [bne_iff_ne]
    rintro rfl
    exact dotless (List.mem_reverse.mp inside)
  rw [lastSegment, List.takeWhile_eq_self_iff.mpr other, List.reverse_reverse,
    String.ofList_toList]

variable {source : String} {around place name declaration : Place}

section Accepted

variable (accepted : accepts source = true)

include accepted

/-- The parts of a place are its essential children that are constructs. -/
theorem parts_nodes (held : (parse source).Holds place) :
    place.parts.map Place.node =
      (Node.essentials place.node.children).filter Node.isPart := by
  have nodes : place.parts.map Place.node = place.node.children.filter Node.isPart := by
    rw [parts, ← map_node_children, List.filter_map]
    rfl
  rw [nodes, Node.essentials, List.filter_filter]
  refine List.filter_congr fun node inside => ?_
  obtain ⟨child, below, rfl⟩ := exists_mem_children inside
  cases isPart : child.node.isPart with
  | false => rfl
  | true =>
    rw [(wellFormed_parse accepted).isExtra_of_isPart (held.child below) isPart]
    rfl

/-- The tokens of a construct are those of its essential children. -/
theorem tokens_essentials (held : (parse source).Holds place) (some : place.node.children ≠ []) :
    place.node.tokens = (Node.essentials place.node.children).flatMap Node.tokens := by
  have extras : ∀ node ∈ place.node.children, node.isExtra = true → node.tokens = [] := by
    intro node inside extra
    obtain ⟨child, below, rfl⟩ := exists_mem_children inside
    have origin := (origin_at accepted held below).here
    have isComment : child.node.isComment = true := by
      rw [Node.isExtra, Bool.or_eq_true] at extra
      refine extra.resolve_right fun isError => ?_
      have isPart : child.node.isPart = true :=
        isPart_of_isAny (isAny_of_is isError (List.mem_singleton_self _)) (by decide)
      have none := (wellFormed_parse accepted).isExtra_of_isPart (held.child below) isPart
      simp [Node.isExtra, isError] at none
    have filled := ((spelled_parse accepted).child held below).1
    have childless := (slash_of_origin origin isComment).1
    simp [Node.tokens, Node.leaves_of_childless filled childless, isComment]
  rw [Node.tokens_of_children some]
  generalize place.node.children = nodes at extras
  induction nodes with
  | nil => rfl
  | cons node rest ih =>
    obtain ⟨here, later⟩ := List.forall_mem_cons.mp extras
    rw [Node.essentials, List.filter_cons, List.flatMap_cons, ih later]
    split
    · rfl
    · next extra =>
      rw [here (by simpa using extra)]
      rfl

/-- A token is the only one in it. -/
theorem tokens_of_childless (held : (parse source).Holds around) (below : place ∈ around.children)
    (childless : place.node.children = []) (meant : place.node.isComment = false) :
    place.node.tokens = [place.node] := by
  have filled := ((spelled_parse accepted).child held below).1
  simp [Node.tokens, Node.leaves_of_childless filled childless, meant]

/-- The parts of a dotted name of several segments are a shorter one and an identifier, and the
tokens between them are a dot. -/
theorem exists_scope (held : (parse source).Holds around) (below : name ∈ around.children)
    (isScoped : name.is .scopedIdentifier = true) :
    ∃ scope last dot, scope ∈ name.children ∧ last ∈ name.children ∧ dot ∈ name.children ∧
      scope.isAny pathConstructs = true ∧ last.is .identifier = true ∧
      name.segments = scope.segments ++ [last] ∧ dot.text = "." ∧
      name.node.tokens = scope.node.tokens ++ [dot.node, last.node] := by
  have heldName := held.child below
  obtain ⟨scope, dot, last, three, path, isDot, isLast⟩ :=
    (origin_at accepted held below).here.scopedIdentifier isScoped
  have inside : ∀ node ∈ [scope, dot, last], node ∈ name.node.children := fun node listed =>
    (Node.mem_essentials.mp (three ▸ listed)).1
  obtain ⟨dot, belowDot, rfl⟩ := exists_mem_children (inside dot (by simp))
  have parts : name.parts.map Place.node = [scope, last] := by
    have scopePart : (Place.mk scope []).node.isPart = true := isPart_of_isAny path (by decide)
    have lastPart : (Place.mk last []).node.isPart = true :=
      isPart_of_isAny (isAny_of_is isLast (List.mem_singleton_self _)) (by decide)
    have dotPart : dot.node.isPart = false := by
      simp [Node.isPart, Node.isConstruct, isDot]
    rw [parts_nodes accepted heldName, three]
    simp [scopePart, dotPart, lastPart]
  obtain ⟨scope, _, pair, rfl, rest⟩ := List.map_eq_cons_iff.mp parts
  obtain ⟨last, rfl, rfl⟩ := List.map_eq_singleton_iff.mp rest
  have belowScope : scope ∈ name.children := mem_children_of_mem_parts (by simp [pair])
  have belowLast : last ∈ name.children := mem_children_of_mem_parts (by simp [pair])
  have lastName : last.isName = true := isAny_of_is isLast (by decide)
  refine ⟨scope, last, dot, belowScope, belowLast, belowDot, path, isLast, ?_, ?_, ?_⟩
  · rw [segments_of_dotted (isAny_of_is isScoped (by decide)), pair]
    simp [segments_of_isName lastName]
  · have origin := (origin_at accepted heldName belowDot).here
    cases origin with
    | comment bare =>
      obtain ⟨construct, _, kind⟩ := Node.isAny_iff.mp bare
      cases isDot.symm.trans kind
    | mark kind childless spelled =>
      obtain rfl := Kind.mark.inj (isDot.symm.trans kind)
      exact spelled
    | token _ _ kind | node _ _ _ kind | growth _ _ _ _ _ kind => cases isDot.symm.trans kind
  · have some : name.node.children ≠ [] :=
      List.ne_nil_of_mem (node_mem_of_mem_children belowDot)
    have dots : dot.node.tokens = [dot.node] := by
      refine tokens_of_childless accepted heldName belowDot ?_ ?_
      · exact ((wellFormed_parse accepted).mark_token (heldName.child belowDot) isDot).1
      · simp [Node.isComment, Node.isAny, Node.is, isDot]
    have names : last.node.tokens = [last.node] := by
      refine tokens_of_childless accepted heldName belowLast ?_
        (isAny_eq_false lastName (by decide))
      exact ((wellFormed_parse accepted).name_token (heldName.child belowLast) lastName).1
    rw [tokens_essentials accepted heldName some, three]
    simp [dots, names]

/-- The tokens of a dotted name spell its identifiers with dots between. Induction on the name. -/
theorem tokens_of_path : ∀ {node : Node}, name.node = node → (parse source).Holds around →
    name ∈ around.children → name.isAny pathConstructs = true →
    node.tokens.flatMap (·.text.toList) = name.dotted.toList ∧ name.segments ≠ [] ∧
      (∀ char ∈ name.dotted.toList, continuesIdentifier char = true ∨ char = '.') ∧
      name.lastName? = some (lastSegment name.dotted) := by
  intro node
  induction node using Node.child_induction generalizing around name with
  | step node ih =>
    rintro rfl held below path
    have heldName := held.child below
    obtain ⟨construct, listed, kind⟩ := isAny_iff.mp path
    simp only [pathConstructs, List.mem_cons, List.not_mem_nil, or_false] at listed
    rcases listed with rfl | rfl
    · obtain ⟨scope, last, dot, belowScope, belowLast, belowDot, isPath, isLast, segments, isDot,
        tokens⟩ := exists_scope accepted held below (is_iff.mpr kind)
      obtain ⟨spelled, some, chars, -⟩ := ih scope.node (node_mem_of_mem_children belowScope) rfl
        heldName belowScope isPath
      have lastName : last.isName = true := isAny_of_is isLast (by decide)
      have word := ((wellFormed_parse accepted).name_token (heldName.child belowLast) lastName).2.2
      have joined : name.dotted = scope.dotted ++ "." ++ last.text := by
        rw [dotted, segments, List.map_append, List.map_singleton,
          intercalate_concat (by simpa using some), dotted]
      have dotChars : ("." : String).toList = ['.'] := rfl
      have dotText : dot.node.text = "." := isDot
      refine ⟨?_, by simp [segments], ?_, ?_⟩
      · rw [tokens, List.flatMap_append, spelled, joined]
        simp [dotText, dotChars, text]
      · rw [joined]
        simp only [String.toList_append, dotChars, List.forall_mem_append]
        exact ⟨⟨chars, by simp⟩, fun char inside => .inl (word.2 char inside)⟩
      · rw [joined, lastSegment_append word.dotless, lastName?, segments]
        simp
    · have isName : name.isName = true := isAny_of_is (is_iff.mpr kind) (by decide)
      obtain ⟨childless, -, word⟩ := (wellFormed_parse accepted).name_token heldName isName
      have tokens := tokens_of_childless accepted held below childless
        (isAny_eq_false isName (by decide))
      have single : name.dotted = name.text := by
        rw [dotted, segments_of_isName isName, ← String.toList_inj, String.toList_intercalate]
        simp
      refine ⟨?_, by simp [segments_of_isName isName], ?_, ?_⟩
      · rw [tokens, single]
        simp [text]
      · rw [single]
        exact fun char inside => .inl (word.2 char inside)
      · rw [single, lastSegment_of_dotless word.dotless, lastName?, segments_of_isName isName]
        rfl

/-- The text of a dotted name, without white space, is its identifiers joined by dots exactly if
there is no comment inside it. -/
theorem withoutBlanks_text (held : (parse source).Holds around) (below : name ∈ around.children)
    (path : name.isAny pathConstructs = true) :
    withoutBlanks name.text = name.dotted ↔ name.node.comments = [] := by
  obtain ⟨filled, chain⟩ := (spelled_parse accepted).child held below
  obtain ⟨spelled, -, chars, -⟩ := tokens_of_path accepted rfl held below path
  have solids : solid name.text = name.node.leaves.flatMap fun leaf => solid leaf.text := by
    rw [text, Node.text_eq filled, solid_joined (Piece.blank_of_isChain chain),
      ← List.flatMap_map, Node.texts_pieces, List.flatMap_map]
  rw [← String.toList_inj, toList_withoutBlanks, solids]
  constructor
  · intro same
    rw [List.eq_nil_iff_forall_not_mem]
    intro comment listed
    obtain ⟨inside, isComment⟩ := List.mem_filter.mp listed
    have origin := (origin_at accepted held below).leaves comment inside
    have slash : '/' ∈ solid comment.text := by
      have front := (slash_of_origin origin isComment).2
      refine List.mem_filter.mpr ⟨List.mem_of_head? front, by decide⟩
    -- Neither identifiers nor dots have a slash.
    have among : '/' ∈ name.dotted.toList := by
      rw [← same]
      exact List.mem_flatMap.mpr ⟨comment, inside, slash⟩
    have other := chars '/' among
    revert other
    decide
  · intro none
    have kept : solid name.dotted = name.dotted.toList := by
      refine List.filter_eq_self.mpr fun char inside => ?_
      rcases chars char inside with continues | rfl
      · rw [Bool.not_eq_true', Bool.eq_false_iff]
        intro blank
        rw [continuesIdentifier_of_isBlank blank] at continues
        contradiction
      · decide
    have whole : (name.node.tokens.flatMap fun leaf => solid leaf.text) = solid name.dotted := by
      rw [solid, ← spelled, List.filter_flatMap]
      rfl
    rw [← Node.tokens_of_commentless none, whole, kept]

/-- A place that is not the whole file lies in another one. -/
theorem exists_around (held : (parse source).Holds place) (other : place.is .program = false) :
    ∃ around, (parse source).Holds around ∧ place ∈ around.children := by
  cases held with
  | root =>
    rw [(wellFormed_parse accepted).root_is_program] at other
    contradiction
  | child held below => exact ⟨_, held, below⟩

/-- The declaration of a package and an import name one dotted name, and that is what is found in
them. -/
theorem exists_names (held : (parse source).Holds declaration)
    (declares : declaration.isAny headerConstructs = true) :
    ∃ name, (∀ child, Names declaration child ↔ child = name) ∧
      dottedName? declaration = some (withoutBlanks name.text) := by
  obtain ⟨around, heldAround, below⟩ :=
    exists_around accepted held (is_eq_false declares (by decide))
  obtain ⟨node, single⟩ := (origin_at accepted heldAround below).here.header declares
  have places : (declaration.children.filter (·.node.isAny pathConstructs)).map Place.node =
      [node] := by
    rw [← single, Node.paths, ← map_node_children, List.filter_map]
    rfl
  obtain ⟨name, only, -⟩ := List.map_eq_singleton_iff.mp places
  refine ⟨name, fun child => ?_, ?_⟩
  · have member : child ∈ declaration.children.filter (·.node.isAny pathConstructs) ↔
        child = name := by
      rw [only, List.mem_singleton]
    exact List.mem_filter.symm.trans member
  · have first : declaration.constructs.find? (·.isAny [.scopedIdentifier, .identifier]) =
        some name := by
      have same : declaration.constructs.filter (·.isAny [.scopedIdentifier, .identifier]) =
          declaration.children.filter (·.node.isAny pathConstructs) := by
        rw [constructs, List.filter_filter]
        refine List.filter_congr fun child _ => ?_
        cases path : child.node.isAny pathConstructs with
        | false => exact Bool.and_eq_false_iff.mpr (.inl path)
        | true =>
          have isPart : child.node.isPart = true := isPart_of_isAny path (by decide)
          exact Bool.and_eq_true_iff.mpr ⟨path, (Bool.and_eq_true_iff.mp isPart).1⟩
      rw [← List.head?_filter, same, only]
      rfl
    rw [dottedName?, first]
    rfl

end Accepted

end Place

namespace Header

open Place

variable {source : String}

/-- The imports of one type in a file, in the order of the source. -/
def typeImports (root : Node) : List Place := (root.places []).filter importsType

/-- What an import is about: a dotted name and its last identifier. -/
def Imports (declaration : Place) (last qualified : String) : Prop :=
  ∃ name, declaration.Names name ∧ name.lastName? = some last ∧ name.dotted = qualified

/-- The last of several pairs with a first component decides, if each thing that pairs are found for
means one pair. -/
theorem find?_last_iff {α : Type} {found : α → Option (String × String)}
    {means : α → String → String → Prop} {things : List α} {key value : String}
    (each : ∀ thing ∈ things, ∃ pair, found thing = some pair ∧
      ∀ key value, means thing key value ↔ pair = (key, value)) :
    ((things.filterMap found).reverse.find? (·.1 == key)).map (·.2) = some value ↔
      ∃ before thing after, things = before ++ thing :: after ∧ means thing key value ∧
        ∀ other ∈ after, ∀ value, ¬ means other key value := by
  induction things using List.reverseRecOn with
  | nil => simp
  | append_singleton front last ih =>
    obtain ⟨others, single⟩ := List.forall_mem_append.mp each
    obtain ⟨pair, same, pairs⟩ := single last (List.mem_singleton_self _)
    have reversed : ((front ++ [last]).filterMap found).reverse =
        pair :: (front.filterMap found).reverse := by
      simp [List.filterMap_append, same]
    rw [reversed, List.find?_cons]
    by_cases here : pair.1 = key
    · rw [show (pair.1 == key) = true from beq_iff_eq.mpr here]
      constructor
      · intro isValue
        have own : pair = (key, value) := Prod.ext here (Option.some.inj isValue)
        exact ⟨front, last, [], rfl, (pairs key value).mpr own, by simp⟩
      · rintro ⟨before, thing, after, whole, isThing, none⟩
        rcases List.eq_nil_or_concat after with rfl | ⟨middle, final, rfl⟩
        · obtain ⟨rfl, rfl⟩ := List.append_singleton_inj.mp whole
          rw [(pairs key value).mp isThing]
          rfl
        · -- Then the last thing comes after, and means a pair with this key.
          rw [List.concat_eq_append, ← List.cons_append, ← List.append_assoc] at whole
          obtain ⟨-, rfl⟩ := List.append_singleton_inj.mp whole
          exact absurd ((pairs key pair.2).mpr (Prod.ext here rfl)) (none last (by simp) pair.2)
    · rw [show (pair.1 == key) = false from beq_eq_false_iff_ne.mpr here]
      have other : ∀ value, ¬ means last key value := by
        intro value isLast
        exact here (congrArg Prod.fst ((pairs key value).mp isLast))
      refine (ih others).trans ⟨?_, ?_⟩
      · rintro ⟨before, thing, after, rfl, isThing, none⟩
        refine ⟨before, thing, after ++ [last], by simp, isThing, ?_⟩
        exact List.forall_mem_append.mpr ⟨none, List.forall_mem_singleton.mpr other⟩
      · rintro ⟨before, thing, after, whole, isThing, none⟩
        rcases List.eq_nil_or_concat after with rfl | ⟨middle, final, rfl⟩
        · obtain ⟨-, rfl⟩ := List.append_singleton_inj.mp whole
          exact absurd isThing (other value)
        · rw [List.concat_eq_append, ← List.cons_append, ← List.append_assoc] at whole
          obtain ⟨rfl, -⟩ := List.append_singleton_inj.mp whole
          exact ⟨before, thing, middle, rfl, isThing, fun other inside =>
            none other (by simp [inside])⟩

/-- The imports of a file are those of one type. -/
theorem imports_eq (root : Node) :
    (ofRoot root).imports = (typeImports root).filterMap import? := by
  rw [ofRoot, typeImports, List.filterMap_filter, List.filterMap_filter]
  refine List.filterMap_congr fun place _ => ?_
  rw [importsType]
  cases place.is .importDeclaration with
  | false => rfl
  | true =>
    cases others : place.children.any fun child => child.isMark "static" || child.is .asterisk with
    | false => rfl
    | true => simp only [import?, others, if_true, Bool.not_true, Bool.and_false, ite_self]

section Accepted

variable (accepted : accepts source = true)

include accepted

/-- The places listed for a source are those of its tree. -/
theorem mem_places_iff {place : Place} {construct : Construct}
    (isPart : ∀ place : Place, place.is construct = true → place.node.isPart = true) :
    place ∈ ((parse source).places []).filter (·.is construct) ↔
      (parse source).Holds place ∧ place.is construct = true := by
  rw [List.mem_filter]
  refine and_congr_left fun itself => ⟨Node.Holds.root.of_mem_places, fun held => ?_⟩
  exact (wellFormed_parse accepted).mem_places held (isPart place itself)

/-- The declaration of a package gives the package of a file, if it is the last one. -/
theorem package_of_getLast? {declaration : Place}
    (last : (((parse source).places []).filter (·.is .packageDeclaration)).getLast? =
      some declaration) :
    ∃ name, (∀ child, declaration.Names child ↔ child = name) ∧
      (ofRoot (parse source)).package = some (withoutBlanks name.text) := by
  obtain ⟨listed, itself⟩ := List.mem_filter.mp (List.mem_of_getLast? last)
  obtain ⟨name, only, found⟩ := exists_names accepted (Node.Holds.root.of_mem_places listed)
    (isAny_of_is itself (by decide))
  refine ⟨name, only, ?_⟩
  rw [ofRoot]
  dsimp only
  rw [last]
  exact found

/-- There is a package exactly if a declaration of one is there. -/
theorem package_eq_none_iff : (ofRoot (parse source)).package = none ↔
    ∀ place, (parse source).Holds place → place.is .packageDeclaration = false := by
  have listed (place : Place) :
      place ∈ ((parse source).places []).filter (·.is .packageDeclaration) ↔
        (parse source).Holds place ∧ place.is .packageDeclaration = true :=
    mem_places_iff accepted fun place itself =>
      isPart_of_isAny (isAny_of_is itself (List.mem_singleton_self _)) (by decide)
  cases last : (((parse source).places []).filter (·.is .packageDeclaration)).getLast? with
  | none =>
    have empty := List.getLast?_eq_none_iff.mp last
    have none : (ofRoot (parse source)).package = none := by
      rw [ofRoot]
      dsimp only
      rw [last]
      rfl
    refine ⟨fun _ place held => ?_, fun _ => none⟩
    rw [Bool.eq_false_iff]
    intro itself
    have inside := (listed place).mpr ⟨held, itself⟩
    rw [empty] at inside
    contradiction
  | some declaration =>
    obtain ⟨name, -, found⟩ := package_of_getLast? accepted last
    obtain ⟨held, itself⟩ := (listed declaration).mp (List.mem_of_getLast? last)
    refine ⟨fun none => ?_, fun others => ?_⟩
    · rw [found] at none
      contradiction
    · rw [others declaration held] at itself
      contradiction

/-- What an import of one type declares: its name without white space, under the last segment of
that. -/
theorem import?_of_mem {declaration : Place} (listed : declaration ∈ typeImports (parse source)) :
    ∃ around name, (parse source).Holds around ∧ name ∈ around.children ∧
      name.isAny pathConstructs = true ∧
      (∀ child, declaration.Names child ↔ child = name) ∧ import? declaration =
        some (lastSegment (withoutBlanks name.text), withoutBlanks name.text) := by
  obtain ⟨inPlaces, imports⟩ := List.mem_filter.mp listed
  obtain ⟨itself, single⟩ := Bool.and_eq_true_iff.mp imports
  have held : (parse source).Holds declaration := Node.Holds.root.of_mem_places inPlaces
  obtain ⟨name, only, found⟩ := exists_names accepted held (isAny_of_is itself (by decide))
  obtain ⟨below, path⟩ := (only name).mpr rfl
  refine ⟨declaration, name, held, below, path, only, ?_⟩
  rw [import?, if_neg (by simpa using single), found]
  rfl

end Accepted

/-- The package of a file is the name in its declaration, with dots between its identifiers, exactly
if no comment is inside the name, and there is no package exactly if no declaration is there. What
imports one type stands for its name under the last identifier of it, exactly if no comment is
inside the name, and where there are none the last import of an identifier counts. -/
theorem ofRoot_parse (accepted : accepts source = true) :
    ((ofRoot (parse source)).package = none ↔
      ∀ place, (parse source).Holds place → place.is .packageDeclaration = false) ∧
    (∀ declaration, (((parse source).places []).filter (·.is .packageDeclaration)).getLast? =
        some declaration →
      ∃ name, (∀ child, declaration.Names child ↔ child = name) ∧
        ((ofRoot (parse source)).package = some name.dotted ↔ name.node.comments = [])) ∧
    (∀ declaration ∈ typeImports (parse source),
      ∃ name last, (∀ child, declaration.Names child ↔ child = name) ∧
        name.lastName? = some last ∧
        (import? declaration = some (last, name.dotted) ↔ name.node.comments = [])) ∧
    ((∀ declaration ∈ typeImports (parse source), ∀ name, declaration.Names name →
        name.node.comments = []) →
      ∀ last qualified, (ofRoot (parse source)).imported? last = some qualified ↔
        ∃ before declaration after,
          typeImports (parse source) = before ++ declaration :: after ∧
          Imports declaration last qualified ∧
          ∀ other ∈ after, ∀ qualified, ¬ Imports other last qualified) := by
  refine ⟨package_eq_none_iff accepted, ?_, ?_, ?_⟩
  · intro declaration last
    obtain ⟨name, only, found⟩ := package_of_getLast? accepted last
    obtain ⟨below, path⟩ := (only name).mpr rfl
    have held : (parse source).Holds declaration :=
      Node.Holds.root.of_mem_places (List.mem_filter.mp (List.mem_of_getLast? last)).1
    refine ⟨name, only, ?_⟩
    rw [found, Option.some.injEq]
    exact withoutBlanks_text accepted held below path
  · intro declaration listed
    obtain ⟨around, name, held, below, path, only, found⟩ := import?_of_mem accepted listed
    have same := withoutBlanks_text accepted held below path
    refine ⟨name, _, only, (tokens_of_path accepted rfl held below path).2.2.2, ?_⟩
    rw [found, Option.some.injEq, Prod.mk.injEq, ← same]
    exact ⟨And.right, fun equal => ⟨by rw [equal], equal⟩⟩
  · intro none last qualified
    rw [imported?, imports_eq]
    refine find?_last_iff fun declaration listed => ?_
    obtain ⟨around, name, held, below, path, only, found⟩ := import?_of_mem accepted listed
    have same := (withoutBlanks_text accepted held below path).mpr
      (none declaration listed name ((only name).mpr rfl))
    have lastName := (tokens_of_path accepted rfl held below path).2.2.2
    refine ⟨_, found, fun key value => ?_⟩
    rw [same, Prod.mk.injEq]
    constructor
    · rintro ⟨own, names, isLast, rfl⟩
      obtain rfl := (only own).mp names
      exact ⟨Option.some.inj (lastName.symm.trans isLast), rfl⟩
    · rintro ⟨rfl, rfl⟩
      exact ⟨name, (only name).mpr rfl, lastName, rfl⟩

/-- A header with white space and comments between its tokens, and imports of three kinds. -/
def sampleHeader : String :=
  "package p; import static p.B.c; import p.*; import /* c */ java.util\n. List; class A \x7b \x7d"

/-- The type is imported, and its import is the one that is written there. -/
theorem imports_sampleHeader : accepts sampleHeader = true ∧
    (∀ declaration ∈ typeImports (parse sampleHeader), ∀ name, declaration.Names name →
      name.node.comments = []) ∧
    ∃ declaration ∈ typeImports (parse sampleHeader),
      Imports declaration "List" "java.util.List" := by
  have accepted : accepts sampleHeader = true := by decide +kernel
  have none : ∀ declaration ∈ typeImports (parse sampleHeader), ∀ name, declaration.Names name →
      name.node.comments = [] := by
    have all : ((typeImports (parse sampleHeader)).all fun declaration =>
        declaration.children.all fun name =>
          !name.isAny pathConstructs || name.node.comments.isEmpty) = true := by
      decide +kernel
    rintro declaration listed name ⟨below, path⟩
    have own := List.all_eq_true.mp (List.all_eq_true.mp all declaration listed) name below
    simpa [path] using own
  obtain ⟨before, declaration, after, whole, imports, -⟩ :=
    ((ofRoot_parse accepted).2.2.2 none "List" "java.util.List").mp (by decide +kernel)
  exact ⟨accepted, none, declaration, by simp [whole], imports⟩

/-- A package with a comment inside its name. -/
def commentedPackage : String := "package a./* x */b; class A \x7b \x7d"

/-- The comment is taken for a part of the package. -/
theorem package_with_comment : accepts commentedPackage = true ∧
    ∃ declaration name, (parse commentedPackage).Holds declaration ∧
      declaration.is .packageDeclaration = true ∧ declaration.Names name ∧
      name.dotted = "a.b" ∧
      (ofRoot (parse commentedPackage)).package = some "a./*x*/b" := by
  have found : (accepts commentedPackage &&
      ((parse commentedPackage).places []).any fun declaration =>
        declaration.is .packageDeclaration && declaration.children.any fun name =>
          name.isAny pathConstructs && name.segments.map text == ["a", "b"]) = true := by
    decide +kernel
  obtain ⟨accepted, declaration, held, shown⟩ := exists_held_of_search found
  obtain ⟨itself, shown⟩ := Bool.and_eq_true_iff.mp shown
  obtain ⟨name, below, named⟩ := List.any_eq_true.mp shown
  obtain ⟨path, segments⟩ := Bool.and_eq_true_iff.mp named
  refine ⟨accepted, declaration, name, held, itself, ⟨below, path⟩, ?_, by decide +kernel⟩
  rw [dotted, eq_of_beq segments]
  rfl

end Header

end CaretName
