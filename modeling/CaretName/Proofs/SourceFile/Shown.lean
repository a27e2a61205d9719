import CaretName.Proofs.Grammar.Apart
import CaretName.Proofs.SourceFile.Caret
import CaretName.Proofs.Text.Compact
import CaretName.Proofs.Tree.Plain

/-!
# What types are shown as

The declared type of a variable and the type of a parameter are shown as texts. `Place.shownType?`
and `Place.shownParameter?` tell what these texts are put together from: the constructs of the
source that are written out, and an ending. They look at kinds and roles only, so they find the
same in every tree that keeps these (`Place.Faithful`), among them the tree without its layout, and
`SourceFile.text_declaredType?` and `Place.text_parameterTypes` say that nothing else is shown.
-/
namespace CaretName

open Grammar

/-- What the text of a type is put together from: constructs, the white space in each of them
compacted, and an ending. -/
structure Shown where
  constructs : List Place
  ending : String

namespace Shown

/-- The text of a type. -/
def text (shown : Shown) : String :=
  shown.constructs.foldr (fun construct rest => compactType construct.text ++ rest) shown.ending

/-- What is shown, without the layout of its constructs. -/
def plain (shown : Shown) : Shown := ⟨shown.constructs.map Place.plain, shown.ending⟩

/-- Whether the constructs are children of places in a tree. -/
def Within (root : Node) (shown : Shown) : Prop :=
  ∀ construct ∈ shown.constructs, ∃ around, root.Holds around ∧ construct ∈ around.children

end Shown

namespace Place

/-- The brackets after the name of a variable. -/
def brackets (declaration : Place) : List Place := (declaration.child? .dimensions).toList

/-- Whether a type is the word that leaves the type of a variable open. -/
def isVar (type : Place) : Bool := type.node.pieces.map Piece.text == ["var"]

/-- What is shown as the type of a variable whose type is left open. -/
def shownValue? (declarator : Place) : Option Shown :=
  (declarator.child? .value).bind fun value =>
    if value.is .objectCreationExpression then (value.child? .type).map fun type => ⟨[type], ""⟩
    else none

/-- What is shown as the type of a variable in a declaration of variables or in a parameter of any
number of values. -/
def shownDeclarator? (declarator : Place) : Option Shown :=
  declarator.parent?.bind fun declaration =>
    if declaration.isAny [.fieldDeclaration, .constantDeclaration,
        .localVariableDeclaration] then
      (declaration.child? .type).bind fun type =>
        if type.isVar then declarator.shownValue? else some ⟨type :: declarator.brackets, ""⟩
    else if declaration.is .spreadParameter then
      declaration.spreadType?.map fun type => ⟨type :: declarator.brackets, "..."⟩
    else none

/-- What is shown as the declared type of a variable, from the place of its name. -/
def shownType? (name : Place) : Option Shown :=
  if !name.declaresVariable then none
  else name.parent?.bind fun parent =>
    if parent.is .variableDeclarator then parent.shownDeclarator?
    else if parent.is .formalParameter then
      (parent.child? .type).map fun type => ⟨type :: parent.brackets, ""⟩
    else if parent.is .catchFormalParameter then
      (parent.parts.find? (·.is .catchType)).map fun type => ⟨[type], ""⟩
    else if parent.isAny [.enhancedForStatement, .resource] then
      (parent.child? .type).bind fun type =>
        if type.isVar then none else some ⟨type :: parent.brackets, ""⟩
    else if parent.is .instanceofExpression then
      (parent.child? .right).map fun type => ⟨[type], ""⟩
    else if parent.is .typePattern then parent.constructs.head?.map fun type => ⟨[type], ""⟩
    else if parent.is .enumConstant then
      (parent.enclosingType?.bind (·.child? .name)).map fun name => ⟨[], name.node.plain.text⟩
    else none

/-- What is shown as the type of a parameter. -/
def shownParameter? (parameter : Place) : Option Shown :=
  if parameter.is .formalParameter then
    (parameter.child? .type).map fun type => ⟨type :: parameter.brackets, ""⟩
  else
    parameter.spreadType?.map fun type =>
      ⟨type :: (parameter.spreadDeclarator?.map brackets).getD [], "..."⟩

/-- The name in a pattern is an identifier in the tree. -/
theorem held_of_patternName? {root : Node} {place name : Place} (held : root.Holds place)
    (found : place.patternName? = some name) : root.Holds name ∧ name.is .identifier = true := by
  obtain ⟨inside, isIdentifier⟩ := Option.filter_eq_some_iff.mp found
  refine ⟨?_, isIdentifier⟩
  cases named : place.child? .name with
  | some own =>
    rw [named] at inside
    obtain rfl : own = name := by simpa using inside
    exact held.of_child? named
  | none =>
    rw [named] at inside
    exact held.of_part (List.mem_of_getLast? (by simpa using inside))

end Place

/-! ## Another tree -/

/-- What is shown, taken from the places that a change leads to. -/
def Shown.along (change : Place → Place) (shown : Shown) : Shown :=
  ⟨shown.constructs.map change, shown.ending⟩

/-- A change of the places of a tree that leaves what is looked at to find what types are shown as.
It need not tell all places apart, but those that are kept. -/
structure Place.Faithful (root : Node) (kept : Place → Prop) (change : Place → Place) : Prop where
  is : ∀ place construct, (change place).is construct = place.is construct
  isAny : ∀ place constructs, (change place).isAny constructs = place.isAny constructs
  parent? : ∀ place, (change place).parent? = place.parent?.map change
  ancestors : ∀ place, (change place).ancestors = place.ancestors.map change
  parts : ∀ place, (change place).parts = place.parts.map change
  child? : ∀ {place}, root.Holds place → ∀ role,
    (change place).child? role = (place.child? role).map change
  same : ∀ {place other}, root.Holds place → root.Holds other → kept place → kept other →
    (change place).same (change other) = place.same other
  hasRole : ∀ {place}, root.Holds place → kept place → ∀ role,
    (change place).hasRole role = place.hasRole role
  /-- Names are kept. -/
  keeps : ∀ {place}, place.is .identifier = true → kept place
  /-- A type is left open if it was. -/
  isVar : ∀ {place type}, root.Holds place → place.child? .type = some type →
    (change type).isVar = type.isVar
  /-- The type in a pattern is its first construct. -/
  first : ∀ {place}, root.Holds place → place.is .typePattern = true →
    (change place).constructs.head? = place.constructs.head?.map change
  /-- A declared type has the name that it had. -/
  name : ∀ {place name}, root.Holds place → place.isTypeDeclaration = true →
    place.child? .name = some name → (change name).node.plain.text = name.node.plain.text

namespace Place.Faithful

variable {root : Node} {kept : Place → Prop} {change : Place → Place} {place : Place}
variable (faithful : Faithful root kept change)

include faithful

/-- The type around a place is found. -/
theorem enclosingType? (place : Place) :
    (change place).enclosingType? = place.enclosingType?.map change := by
  have declares (other : Place) : (change other).isTypeDeclaration = other.isTypeDeclaration :=
    faithful.isAny other _
  simp only [Place.enclosingType?, faithful.ancestors, List.find?_map, Function.comp_def, declares]

/-- The type of a parameter of any number of values is found. -/
theorem spreadType? (place : Place) :
    (change place).spreadType? = place.spreadType?.map change := by
  simp only [Place.spreadType?, annotates, faithful.parts, List.find?_map, Function.comp_def,
    faithful.isAny]

/-- The name of a parameter of any number of values is found. -/
theorem spreadDeclarator? (place : Place) :
    (change place).spreadDeclarator? = place.spreadDeclarator?.map change := by
  simp only [Place.spreadDeclarator?, faithful.parts, List.find?_map, Function.comp_def,
    faithful.is]

/-- The parameters in a list are found. -/
theorem parameters (place : Place) :
    (change place).parameters = place.parameters.map change := by
  simp [Place.parameters, faithful.parts, faithful.isAny, List.filter_map, Function.comp_def]

variable (held : root.Holds place)

include held

/-- The brackets after a name are found. -/
theorem brackets : (change place).brackets = place.brackets.map change := by
  rw [Place.brackets, faithful.child? held, Place.brackets]
  cases place.child? .dimensions <;> rfl

/-- The name in a pattern is found. -/
theorem patternName? : (change place).patternName? = place.patternName?.map change := by
  rw [Place.patternName?, faithful.child? held, faithful.parts, List.getLast?_map,
    Place.patternName?]
  cases place.child? .name <;> cases place.parts.getLast? <;>
    simp [Option.filter, apply_ite, faithful.is]

/-- A name declares a variable if it did. -/
theorem declaresVariable (meant : kept place) :
    (change place).declaresVariable = place.declaresVariable := by
  rw [Place.declaresVariable, Place.declaresVariable, faithful.parent?]
  cases above : place.parent? with
  | none => rfl
  | some parent =>
    have around := (held.parent above).1
    simp only [Option.map_some, faithful.isAny, faithful.is, faithful.hasRole held meant,
      faithful.patternName? around]
    have pattern : (parent.patternName?.map change).any (change place).same =
        parent.patternName?.any place.same := by
      cases found : parent.patternName? with
      | none => rfl
      | some name =>
        obtain ⟨heldName, isName⟩ := held_of_patternName? around found
        exact faithful.same held heldName meant (faithful.keeps isName)
    rw [pattern]

/-- What is shown for a variable whose type is left open is found. -/
theorem shownValue? :
    (change place).shownValue? = place.shownValue?.map (Shown.along change) := by
  rw [Place.shownValue?, faithful.child? held, Place.shownValue?]
  cases found : place.child? .value with
  | none => rfl
  | some value =>
    simp only [Option.map_some, Option.bind_some, faithful.is,
      faithful.child? (held.of_child? found)]
    cases value.is .objectCreationExpression <;> cases value.child? .type <;> rfl

/-- What is shown for a variable in a declaration of variables is found. -/
theorem shownDeclarator? :
    (change place).shownDeclarator? = place.shownDeclarator?.map (Shown.along change) := by
  rw [Place.shownDeclarator?, faithful.parent?, Place.shownDeclarator?]
  cases above : place.parent? with
  | none => rfl
  | some declaration =>
    have around := (held.parent above).1
    simp only [Option.map_some, Option.bind_some, faithful.isAny, faithful.is,
      faithful.child? around, faithful.brackets held, faithful.shownValue? held,
      faithful.spreadType?]
    split
    · cases found : declaration.child? .type with
      | none => rfl
      | some type =>
        simp only [Option.map_some, Option.bind_some, faithful.isVar around found]
        cases type.isVar <;> rfl
    split
    · cases declaration.spreadType? <;> rfl
    · rfl

/-- What is shown as the type of a variable is found. -/
theorem shownType? (meant : kept place) :
    (change place).shownType? = place.shownType?.map (Shown.along change) := by
  rw [Place.shownType?, faithful.declaresVariable held meant, faithful.parent?, Place.shownType?]
  split
  · rfl
  cases above : place.parent? with
  | none => rfl
  | some parent =>
    have around := (held.parent above).1
    simp only [Option.map_some, Option.bind_some, faithful.isAny, faithful.is,
      faithful.child? around, faithful.brackets around, faithful.shownDeclarator? around,
      faithful.parts, faithful.enclosingType?, List.find?_map, Function.comp_def]
    split
    · rfl
    split
    · cases parent.child? .type <;> rfl
    split
    · cases parent.parts.find? (·.is .catchType) <;> rfl
    split
    · cases found : parent.child? .type with
      | none => rfl
      | some type =>
        simp only [Option.map_some, Option.bind_some, faithful.isVar around found]
        cases type.isVar <;> rfl
    split
    · cases parent.child? .right <;> rfl
    split
    · next isPattern =>
      rw [faithful.first around isPattern]
      cases parent.constructs.head? <;> rfl
    split
    · cases enclosing : parent.enclosingType? with
      | none => rfl
      | some type =>
        have heldType := around.of_ancestor (List.mem_of_find?_eq_some enclosing)
        have declares : type.isTypeDeclaration = true := List.find?_some enclosing
        simp only [Option.map_some, Option.bind_some, faithful.child? heldType]
        cases found : type.child? .name with
        | none => rfl
        | some own => simp [Shown.along, faithful.name heldType declares found]
    · rfl

/-- What is shown as the type of a parameter is found. -/
theorem shownParameter? :
    (change place).shownParameter? = place.shownParameter?.map (Shown.along change) := by
  simp only [Place.shownParameter?, faithful.is, faithful.child? held, faithful.brackets held,
    faithful.spreadType?, faithful.spreadDeclarator?]
  split
  · cases place.child? .type <;> rfl
  · cases place.spreadType? with
    | none => rfl
    | some type =>
      cases found : place.spreadDeclarator? with
      | none => rfl
      | some declarator =>
        have inside := held.of_part (List.mem_of_find?_eq_some found)
        simp [Shown.along, faithful.brackets inside]

/-- What is shown as the types of parameters is found. -/
theorem shownParameters : (change place).parameters.filterMap Place.shownParameter? =
    (place.parameters.filterMap Place.shownParameter?).map (Shown.along change) := by
  rw [faithful.parameters, List.map_filterMap, List.filterMap_map]
  exact List.filterMap_congr fun parameter inside =>
    faithful.shownParameter? (held.of_part (List.mem_of_mem_filter inside))

end Place.Faithful

/-- The layout of a tree does not matter for what types are shown as. -/
theorem Place.faithful_plain (root : Node) : Faithful root (fun _ => True) plain where
  is := is_plain
  isAny := isAny_plain
  parent? := parent?_plain
  ancestors := ancestors_plain
  parts := parts_plain
  child? _ := child?_plain _
  same _ _ _ _ := same_plain _ _
  hasRole _ _ := hasRole_plain _
  keeps _ := trivial
  isVar _ _ := by rw [isVar, node_plain, Node.texts_plain, isVar]
  first _ _ := by rw [constructs_plain, List.head?_map]
  name _ _ _ := by rw [node_plain, Node.plain_plain]

/-! ## Texts -/

/-- An ending goes on with its rest. -/
theorem Shown.text_append (constructs : List Place) (first second : String) :
    Shown.text ⟨constructs, first ++ second⟩ = Shown.text ⟨constructs, first⟩ ++ second := by
  induction constructs with
  | nil => rfl
  | cons construct rest ih =>
    simp only [Shown.text, List.foldr_cons] at ih ⊢
    rw [ih, String.append_assoc]

namespace Place

/-- The brackets after a name are shown as the brackets that they are. -/
theorem bracketsAfterName_eq (place : Place) :
    place.bracketsAfterName = Shown.text ⟨place.brackets, ""⟩ := by
  rw [bracketsAfterName, brackets]
  cases place.child? .dimensions <;> simp [Shown.text]

/-- A type is shown with the brackets after the name and an ending. -/
theorem text_written (type declaration : Place) (ending : String) :
    (type.written (declaration.bracketsAfterName ++ ending)).text =
      Shown.text ⟨type :: declaration.brackets, ending⟩ := by
  have joined := Shown.text_append declaration.brackets "" ending
  rw [String.empty_append] at joined
  rw [written, bracketsAfterName_eq, ← joined]
  rfl

/-- The type of a parameter has its text with the brackets after the name and an ending. -/
theorem text_typeRef (type : Place) (dimensions : String) (takesMany : Bool) :
    (type.typeRef dimensions takesMany).text =
      compactType type.text ++ (dimensions ++ if takesMany then "..." else "") := by
  unfold typeRef
  dsimp only
  split
  · simp [TypeRef.text, String.append_assoc]
  · rw [String.append_empty]
    split
    · rfl
    · next none =>
      obtain rfl : dimensions = "" := by simpa using none
      rw [String.append_empty]
      split_ifs <;> rfl

/-- The types of parameters have the texts that are shown for them. -/
theorem text_parameterTypes (list : Place) : list.parameterTypes.map TypeRef.text =
    (list.parameters.filterMap shownParameter?).map Shown.text := by
  rw [parameterTypes, List.map_filterMap, List.map_filterMap]
  refine List.filterMap_congr fun parameter _ => ?_
  rw [shownParameter?]
  split
  · cases parameter.child? .type with
    | none => rfl
    | some type =>
      have shown := text_written type parameter ""
      rw [String.append_empty] at shown
      simp [text_typeRef, ← shown, written]
  · cases parameter.spreadType? with
    | none => rfl
    | some type =>
      cases parameter.spreadDeclarator? with
      | none => simp [text_typeRef, Shown.text]
      | some declarator =>
        have shown := text_written type declarator "..."
        simp [text_typeRef, ← shown, written]

/-- In a filled tree of pieces that follow each other, a type is written like the word that leaves
a type open only if it is that word: it cannot be put together from several. -/
theorem isVar_eq {type : Place} (filled : type.node.filled = true)
    (chain : List.IsChain Piece.Follows type.node.pieces) : (type.text == "var") = type.isVar := by
  rw [Bool.eq_iff_iff, beq_iff_eq, isVar, beq_iff_eq, text, Node.text_eq filled]
  have visible := (Node.pieces_of_filled filled).2
  constructor
  · intro spelled
    cases pieces : type.node.pieces with
    | nil => rw [pieces] at spelled; contradiction
    | cons first rest =>
      rw [pieces] at spelled chain visible
      cases rest with
      | nil => simpa [Piece.joined, Piece.spaced] using spelled
      | cons next rest =>
        -- The next piece would have to start with a letter, without white space in front of it.
        have letters : ∀ char ∈ ("var" : String).toList, isBlank char = false ∧
            startsIdentifier char = true ∧ continuesIdentifier char = true := by
          have all : ("var" : String).toList.all (fun char =>
              !isBlank char && startsIdentifier char && continuesIdentifier char) = true := by
            decide +kernel
          intro char inside
          simpa [and_assoc] using List.all_eq_true.mp all char inside
        have whole : first.text.toList ++ (next.gap.toList ++ (next.text.toList ++
            (Piece.spaced rest).toList)) = ("var" : String).toList := by
          simpa [Piece.joined, Piece.spaced] using congrArg String.toList spelled
        simp only [← whole, List.forall_mem_append] at letters
        obtain ⟨inFirst, inGap, inNext, _⟩ := letters
        have follows := (List.isChain_cons_cons.mp chain).1
        obtain ⟨char, _, front⟩ : ∃ char chars, first.text.toList = char :: chars :=
          List.exists_cons_of_ne_nil (by simpa using visible first (by simp))
        obtain ⟨char', _, front'⟩ : ∃ char chars, next.text.toList = char :: chars :=
          List.exists_cons_of_ne_nil (by simpa using visible next (by simp))
        have bound : Piece.binds first.text.toList = true := by
          simp [Piece.binds, front, (inFirst char (by simp [front])).2.1]
        have empty : next.gap = "" := by
          rw [← String.toList_eq_nil_iff]
          refine List.eq_nil_iff_forall_not_mem.mpr fun char inside => ?_
          have blank := follows.blank char inside
          rw [(inGap char inside).1] at blank
          contradiction
        have apart := follows.apart bound empty char' (by simp [front'])
        rw [(inNext char' (by simp [front'])).2.2] at apart
        contradiction
  · intro single
    obtain ⟨piece, same, spelled⟩ := List.map_eq_singleton_iff.mp single
    simp [same, Piece.joined, Piece.spaced, spelled]

end Place

/-! ## The types of variables -/

namespace SourceFile

variable {root : Node} {place name declarator : Place}

/-- What is shown for a variable whose type is left open is the text of its type. -/
theorem text_inferredType? (declarator : Place) :
    declarator.inferredType?.map DeclaredType.text = declarator.shownValue?.map Shown.text := by
  rw [Place.inferredType?, Place.shownValue?]
  cases declarator.child? .value with
  | none => rfl
  | some value =>
    rw [Option.bind_some, Option.bind_some]
    split
    · cases value.child? .type <;> simp [Shown.text, Place.written]
    · rfl

/-- What is shown for a variable in a declaration of variables or in a parameter of any number of
values is the text of its type. -/
theorem text_declaratorType? (spelled : root.Spelled) (held : root.Holds declarator) :
    declarator.declaratorType?.map DeclaredType.text =
      declarator.shownDeclarator?.map Shown.text := by
  rw [Place.declaratorType?, Place.shownDeclarator?]
  cases above : declarator.parent? with
  | none => rfl
  | some declaration =>
    simp only [Option.bind_some]
    split
    · cases found : declaration.child? .type with
      | none => rfl
      | some type =>
        obtain ⟨filled, chain⟩ :=
          spelled.child (held.parent above).1 (Place.mem_children_of_child? found).1
        simp only [Option.bind_some, Place.isVar_eq filled chain]
        split
        · exact text_inferredType? declarator
        · have shown := Place.text_written type declarator ""
          rw [String.append_empty] at shown
          simp [← shown]
    split
    · cases declaration.spreadType? with
      | none => rfl
      | some type => simp [Place.text_written]
    · rfl

/-- What is shown as the declared type of a variable is the text of its type. -/
theorem text_declaredType? (wf : WellFormed root) (spelled : root.Spelled)
    (held : root.Holds name) :
    name.declaredType?.map DeclaredType.text = name.shownType?.map Shown.text := by
  rw [Place.declaredType?, Place.shownType?]
  split
  · rfl
  cases above : name.parent? with
  | none => rfl
  | some parent =>
    have heldParent := (held.parent above).1
    have plain (type : Place) : (type.written parent.bracketsAfterName).text =
        Shown.text ⟨type :: parent.brackets, ""⟩ := by
      have shown := Place.text_written type parent ""
      rwa [String.append_empty] at shown
    have alone (type : Place) : (type.written "").text = Shown.text ⟨[type], ""⟩ := by
      simp [Shown.text, Place.written]
    simp only [Option.bind_some]
    split
    · exact text_declaratorType? spelled heldParent
    split
    · cases parent.child? .type <;> simp [plain]
    split
    · cases parent.parts.find? (·.is .catchType) <;> simp [Shown.text]
    split
    · cases found : parent.child? .type with
      | none => rfl
      | some type =>
        obtain ⟨filled, chain⟩ := spelled.child heldParent (Place.mem_children_of_child? found).1
        simp only [Option.bind_some, Place.isVar_eq filled chain]
        split <;> simp [plain]
    split
    · cases parent.child? .right <;> simp [alone]
    split
    · cases parent.constructs.head? <;> simp [alone]
    split
    · cases enclosing : parent.enclosingType? with
      | none => rfl
      | some type =>
        have heldType := heldParent.of_ancestor (List.mem_of_find?_eq_some enclosing)
        have declares : type.isTypeDeclaration = true := List.find?_some enclosing
        obtain ⟨own, found, isIdentifier⟩ := wf.exists_name heldType
          (Place.isAny_mono declares (by decide))
        have childless := (wf.name_token (heldType.of_child? found)
          (isName_of_identifier isIdentifier)).1
        simp [Place.declaredName?, found, Shown.text, Place.text,
          Node.text_plain_of_childless childless]
    · rfl

/-- A type alone lies where it was found. -/
theorem within_alone {around type : Place} (held : root.Holds around)
    (below : type ∈ around.children) {ending : String} :
    Shown.Within root ⟨[type], ending⟩ := by
  intro construct listed
  obtain rfl := List.mem_singleton.mp listed
  exact ⟨around, held, below⟩

/-- A type and brackets lie where they were found. -/
theorem within_brackets {around type declaration : Place} (held : root.Holds around)
    (below : type ∈ around.children) (held' : root.Holds declaration) {ending : String} :
    Shown.Within root ⟨type :: declaration.brackets, ending⟩ := by
  intro construct listed
  rcases List.mem_cons.mp listed with rfl | bracket
  · exact ⟨around, held, below⟩
  · exact ⟨declaration, held',
      (Place.mem_children_of_child? (Option.mem_toList.mp bracket)).1⟩

/-- The type of a parameter of any number of values is a child of it. -/
theorem mem_children_of_spreadType? {parameter type : Place}
    (found : parameter.spreadType? = some type) : type ∈ parameter.children :=
  Place.mem_children_of_mem_parts (List.mem_of_find?_eq_some found)

/-- What is shown for a variable in a declaration of variables or in a parameter of any number of
values lies in the tree. -/
theorem within_of_shownDeclarator? (held : root.Holds declarator) {shown : Shown}
    (found : declarator.shownDeclarator? = some shown) : shown.Within root := by
  rw [Place.shownDeclarator?] at found
  obtain ⟨declaration, above, found⟩ := Option.bind_eq_some_iff.mp found
  have around := (held.parent above).1
  split at found
  · obtain ⟨type, typed, found⟩ := Option.bind_eq_some_iff.mp found
    split at found
    · obtain ⟨value, valued, found⟩ := Option.bind_eq_some_iff.mp found
      split at found
      · obtain ⟨created, named, rfl⟩ := Option.map_eq_some_iff.mp found
        exact within_alone (held.of_child? valued) (Place.mem_children_of_child? named).1
      · contradiction
    · obtain rfl := Option.some.inj found
      exact within_brackets around (Place.mem_children_of_child? typed).1 held
  split at found
  · obtain ⟨type, typed, rfl⟩ := Option.map_eq_some_iff.mp found
    exact within_brackets around (mem_children_of_spreadType? typed) held
  · contradiction

/-- What is shown as the type of a variable lies in the tree. -/
theorem within_of_shownType? (held : root.Holds name) {shown : Shown}
    (found : name.shownType? = some shown) : shown.Within root := by
  rw [Place.shownType?] at found
  split at found
  · contradiction
  obtain ⟨parent, above, found⟩ := Option.bind_eq_some_iff.mp found
  have around := (held.parent above).1
  split at found
  · exact within_of_shownDeclarator? around found
  split at found
  · obtain ⟨type, typed, rfl⟩ := Option.map_eq_some_iff.mp found
    exact within_brackets around (Place.mem_children_of_child? typed).1 around
  split at found
  · obtain ⟨type, typed, rfl⟩ := Option.map_eq_some_iff.mp found
    exact within_alone around (Place.mem_children_of_mem_parts (List.mem_of_find?_eq_some typed))
  split at found
  · obtain ⟨type, typed, found⟩ := Option.bind_eq_some_iff.mp found
    split at found
    · contradiction
    · obtain rfl := Option.some.inj found
      exact within_brackets around (Place.mem_children_of_child? typed).1 around
  split at found
  · obtain ⟨type, typed, rfl⟩ := Option.map_eq_some_iff.mp found
    exact within_alone around (Place.mem_children_of_child? typed).1
  split at found
  · obtain ⟨type, typed, rfl⟩ := Option.map_eq_some_iff.mp found
    exact within_alone around
      (Place.mem_children_of_mem_constructs (List.mem_of_head? typed))
  split at found
  · obtain ⟨own, _, rfl⟩ := Option.map_eq_some_iff.mp found
    intro construct listed
    contradiction
  · contradiction

/-- What is shown as the type of a parameter lies in the tree. -/
theorem within_of_shownParameter? (held : root.Holds place) {shown : Shown}
    (found : place.shownParameter? = some shown) : shown.Within root := by
  rw [Place.shownParameter?] at found
  split at found
  · obtain ⟨type, typed, rfl⟩ := Option.map_eq_some_iff.mp found
    exact within_brackets held (Place.mem_children_of_child? typed).1 held
  · obtain ⟨type, typed, rfl⟩ := Option.map_eq_some_iff.mp found
    cases declared : place.spreadDeclarator? with
    | none => exact within_alone held (mem_children_of_spreadType? typed)
    | some declarator =>
      have below := Place.mem_children_of_mem_parts (List.mem_of_find?_eq_some declared)
      exact within_brackets held (mem_children_of_spreadType? typed) (held.child below)

/-- What is shown as the types of parameters lies in the tree. -/
theorem within_of_shownParameters {list : Place} (held : root.Holds list) {shown : Shown}
    (listed : shown ∈ list.parameters.filterMap Place.shownParameter?) : shown.Within root := by
  obtain ⟨parameter, inside, found⟩ := List.mem_filterMap.mp listed
  exact within_of_shownParameter? (held.of_part (List.mem_of_mem_filter inside)) found

end SourceFile

end CaretName
