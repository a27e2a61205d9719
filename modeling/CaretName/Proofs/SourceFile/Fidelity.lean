import CaretName.Proofs.SourceFile.Meaning
import CaretName.Proofs.SourceFile.Naming

/-!
# Names and the elements they mean

Whatever a name means, the element is called what the name says: the qualified name of a type
ends with the name, and a variable or a method has it for its simple name. This holds of every
tree, with or without errors, and of every part a name can have in it.
-/
namespace CaretName

open Grammar

/-! ## Names that end in a segment -/

/-- A dotted name whose last segment is a text. -/
def EndsIn (segment name : String) : Prop :=
  name = segment ∨ ∃ front, name = front ++ "." ++ segment

/-- Whether an element that has a name is called by it. -/
def Element.IsCalled (name : String) : Element → Prop
  | .type qualifiedName => EndsIn name qualifiedName
  | .variable _ simpleName => simpleName = name
  | .method _ simpleName _ => simpleName = name
  | .constructor _ _ => True
  | .other => True

namespace EndsIn

variable {segment name : String}

/-- A name ends in itself. -/
theorem refl : EndsIn name name := .inl rfl

/-- A segment after a dot is the last one. -/
theorem after (front : String) : EndsIn segment (front ++ "." ++ segment) := .inr ⟨front, rfl⟩

/-- A longer front leaves the last segment alone. -/
theorem prepend (ends : EndsIn segment name) (front : String) :
    EndsIn segment (front ++ "." ++ name) := by
  rcases ends with rfl | ⟨middle, rfl⟩
  · exact after front
  · exact .inr ⟨front ++ "." ++ middle, by simp only [String.append_assoc]⟩

/-- The package leaves the last segment alone. -/
theorem qualify (ends : EndsIn segment name) (header : Header) :
    EndsIn segment (header.qualify name) := by
  unfold Header.qualify
  split
  · exact ends.prepend _
  · exact ends

/-- Segments joined by dots end in the last one. -/
theorem intercalate {names : List String} (last : names.getLast? = some segment) :
    EndsIn segment (".".intercalate names) := by
  obtain ⟨front, rfl⟩ := List.getLast?_eq_some_iff.mp last
  cases front with
  | nil => exact .inl String.intercalate_singleton
  | cons first more =>
    rw [String.intercalate_append_of_ne_nil (by simp) (by simp), String.intercalate_singleton]
    exact after _

/-- Segments added one by one end in the last one. -/
theorem foldl {names : List String} (last : names.getLast? = some segment) (base : String) :
    EndsIn segment (names.foldl (fun name part => name ++ "." ++ part) base) := by
  obtain ⟨front, rfl⟩ := List.getLast?_eq_some_iff.mp last
  rw [List.foldl_append]
  exact after _

/-- A dotted name ends in what follows its last dot. -/
theorem lastSegment (name : String) : EndsIn (lastSegment name) name := by
  have whole := List.takeWhile_append_dropWhile (p := (· != '.')) (l := name.toList.reverse)
  cases front : name.toList.reverse.dropWhile (· != '.') with
  | nil =>
    left
    rw [front, List.append_nil] at whole
    rw [CaretName.lastSegment, whole, List.reverse_reverse, String.ofList_toList]
  | cons dot rest =>
    right
    have isDot : dot = '.' := by
      have stopped := List.head?_dropWhile_not (· != '.') name.toList.reverse
      simpa [front] using stopped
    refine ⟨String.ofList rest.reverse, String.toList_inj.mp ?_⟩
    rw [front, isDot] at whole
    have reversed := congrArg List.reverse whole
    simp only [List.reverse_append, List.reverse_cons, List.reverse_reverse] at reversed
    simp only [CaretName.lastSegment, String.toList_append, String.toList_ofList]
    exact reversed.symm

end EndsIn

/-! ## Types -/

namespace SourceFile

variable {root : Node} {name : String} {site place access token : Place}

/-- The qualified name of a declared type ends in the name of the type. -/
theorem endsIn_qualifiedName (file : SourceFile) (declares : place.declaresType name = true) :
    EndsIn name (file.qualifiedName place) := by
  simp only [Place.declaresType, Place.declaredName?, Bool.and_eq_true, beq_iff_eq,
    Option.map_eq_some_iff] at declares
  obtain ⟨isType, own, child, rfl⟩ := declares
  have last : (scheme.path place).segments.getLast? = some own.text := by
    simp [Scheme.path, Place.outward, isBoundary_of_isTypeDeclaration isType,
      segment?_eq isType child]
  have joined : EndsIn own.text (scheme.path place).joined := EndsIn.intercalate last
  unfold qualifiedName
  dsimp only
  split
  · exact joined
  · exact joined.qualify file.header

/-- A declaration that a simple name means has the name. -/
theorem declaresType_of_visibleType? (visible : site.visibleType? name = some place) :
    place.declaresType name = true := by
  obtain ⟨around, _, here⟩ := List.exists_of_findSome?_eq_some visible
  unfold Place.typeNamedHere? at here
  split at here
  · next declares => exact Option.some.inj here ▸ declares
  · split at here
    · exact List.find?_some here
    · contradiction

/-- A simple name is imported for a name that ends in it. -/
theorem endsIn_imported? {imported : String}
    (found : (Header.ofRoot root).imported? name = some imported) : EndsIn name imported := by
  obtain ⟨⟨simple, qualified⟩, chosen, rfl⟩ := Option.map_eq_some_iff.mp found
  have same : simple = name := by simpa using List.find?_some chosen
  have listed := List.mem_reverse.mp (List.mem_of_find?_eq_some chosen)
  obtain ⟨declaration, _, imports⟩ := List.mem_filterMap.mp listed
  unfold Header.import? at imports
  split at imports
  · contradiction
  · obtain ⟨dotted, _, pair⟩ := Option.map_eq_some_iff.mp imports
    simp only [Prod.mk.injEq] at pair
    obtain ⟨rfl, rfl⟩ := pair
    exact same ▸ EndsIn.lastSegment dotted

/-- What declares or imports a simple name ends in it. -/
theorem endsIn_lookupType? {qualifiedName : String}
    (found : (ofRoot root).lookupType? name site = some (.type qualifiedName)) :
    EndsIn name qualifiedName := by
  unfold lookupType? at found
  split at found
  · simp at found
  · split at found
    · next visible =>
      simp only [Option.some.injEq, TypeMeaning.type.injEq] at found
      exact found ▸ endsIn_qualifiedName _ (declaresType_of_visibleType? visible)
    · split at found
      · next imported =>
        simp only [Option.some.injEq, TypeMeaning.type.injEq] at found
        exact found ▸ endsIn_imported? imported
      · split at found
        · simp only [Option.some.injEq, TypeMeaning.type.injEq] at found
          exact found ▸ EndsIn.after "java.lang"
        · contradiction

/-- The element of a name used as that of a type is called by it. -/
theorem isCalled_typeElement (token : Place) :
    ((ofRoot root).typeElement token).IsCalled token.text := by
  unfold typeElement
  split
  · trivial
  · unfold typeMeaning
    cases found : (ofRoot root).lookupType? token.text token with
    | none => exact EndsIn.refl.qualify _
    | some meaning =>
      cases meaning with
      | type qualifiedName => exact endsIn_lookupType? found
      | typeVariable => trivial

/-! ## Dotted names -/

/-- A complete dotted name is called by its last segment. -/
theorem isCalled_completeName {names : List String} (last : names.getLast? = some name) :
    (completeName names).IsCalled name := by
  unfold completeName
  split
  · exact EndsIn.intercalate last
  · trivial

/-- A dotted name is called by its last segment. -/
theorem isCalled_dottedElement {names : List String} (last : names.getLast? = some name)
    (site : Place) : ((ofRoot root).dottedElement names site).IsCalled name := by
  cases names with
  | nil => contradiction
  | cons first rest =>
    have under : ∀ base, EndsIn first base →
        EndsIn name (rest.foldl (fun name part => name ++ "." ++ part) base) := by
      intro base ends
      cases rest with
      | nil =>
        obtain rfl : first = name := by simpa using last
        exact ends
      | cons second more => exact EndsIn.foldl (by simpa using last) base
    unfold dottedElement
    dsimp only
    split
    · next found => exact under _ (endsIn_lookupType? found)
    · trivial
    · split
      · exact under _ (EndsIn.refl.qualify _)
      · exact isCalled_completeName last

/-- The names of a chain of field accesses end in the name of the last field. -/
theorem getLast?_accessPath? {field : Place} {names : List String}
    (isAccess : access.is .fieldAccess = true) (child : access.child? .field = some field)
    (path : access.accessPath? = some names) : names.getLast? = some field.text := by
  unfold Place.accessPath? at path
  have noName : access.is .identifier = false :=
    Place.is_eq_false (Place.isAny_of_is isAccess (List.mem_singleton_self _)) (by decide)
  cases fuel : access.node.height with
  | zero => simp [fuel, Place.accessPathWithin?] at path
  | succ fuel' =>
    rw [fuel, Place.accessPathWithin?, child] at path
    simp only [noName, isAccess, Bool.false_eq_true, ↓reduceIte] at path
    split at path
    · next field' _ same =>
      obtain ⟨before, _, rfl⟩ := Option.map_eq_some_iff.mp path
      obtain rfl := Option.some.inj same
      simp
    · contradiction

/-- A field access that is the dotted name of a type is called by its field. -/
theorem isCalled_accessNamed? {field : Place} {element : Element}
    (isAccess : access.is .fieldAccess = true) (child : access.child? .field = some field)
    (named : (ofRoot root).accessNamed? access = some element) : element.IsCalled field.text := by
  obtain ⟨names, path, named⟩ := Option.bind_eq_some_iff.mp named
  have last := getLast?_accessPath? isAccess child path
  have called : ((ofRoot root).dottedElement names access).IsCalled field.text :=
    isCalled_dottedElement last access
  split at named
  · contradiction
  · split at named
    · next isType =>
      obtain ⟨_, _, rfl⟩ := Option.map_eq_some_iff.mp named
      rwa [isType] at called
    · contradiction

end SourceFile

/-! ## Segments of dotted names -/

namespace Place

variable {root : Node} {place token segment : Place}

/-- Among children the segments are those of the parts, in order. -/
theorem segmentsAmong_eq (around : Place) (index : Nat) (nodes : List Node) :
    segmentsAmong around index nodes =
      ((around.below index nodes).filter (·.node.isPart)).flatMap segments := by
  induction nodes generalizing index with
  | nil => rfl
  | cons node rest ih =>
    rw [segmentsAmong, ih, below]
    cases isPart : node.isPart <;> simp [isPart, segments]

/-- The only segment of a name is the name. -/
theorem segments_of_isName (isName : place.isName = true) : place.segments = [place] := by
  obtain ⟨node, above⟩ := place
  have names : Place.isAny ⟨node, above⟩ [.identifier, .typeIdentifier] = true := isName
  cases node <;> simp [segments, Node.segments, names]

/-- The segments of a dotted name are those of its parts, in order. -/
theorem segments_of_dotted (dotted : place.isAny dottedNames = true) :
    place.segments = place.parts.flatMap segments := by
  obtain ⟨node, above⟩ := place
  have noName : Place.isAny ⟨node, above⟩ [.identifier, .typeIdentifier] = false :=
    isAny_eq_false dotted (by decide)
  cases node with
  | leaf => simp [segments, Node.segments, noName, parts, children, below, Node.children]
  | branch kind role span nodes =>
    rw [segments, Node.segments]
    simp only [noName, dotted, Bool.false_eq_true, ↓reduceIte]
    exact segmentsAmong_eq _ 0 nodes

/-- Anything else has no segments. -/
theorem segments_eq_nil (noName : place.isName = false)
    (noDots : place.isAny dottedNames = false) : place.segments = [] := by
  obtain ⟨node, above⟩ := place
  have noName : Place.isAny ⟨node, above⟩ [.identifier, .typeIdentifier] = false := noName
  cases node <;> simp [segments, Node.segments, noName, noDots]

/-- A segment is a name itself or lies in a part of a dotted name. -/
theorem mem_segments_cases (listed : segment ∈ place.segments) :
    (place.isName = true ∧ segment = place) ∨
      (place.isAny dottedNames = true ∧ ∃ part ∈ place.parts, segment ∈ part.segments) := by
  cases isName : place.isName with
  | true => exact .inl ⟨rfl, by simpa [segments_of_isName isName] using listed⟩
  | false =>
    cases dotted : place.isAny dottedNames with
    | true => exact .inr ⟨rfl, List.mem_flatMap.mp (segments_of_dotted dotted ▸ listed)⟩
    | false => simp [segments_eq_nil isName dotted] at listed

/-- The segments of a place of the tree belong to the tree. -/
theorem held_of_mem_segments (held : root.Holds place) (listed : segment ∈ place.segments) :
    root.Holds segment := by
  induction place using Place.child_induction with
  | step place ih =>
    rcases mem_segments_cases listed with ⟨_, rfl⟩ | ⟨_, part, inside, listed⟩
    · exact held
    · exact ih part (mem_children_of_mem_parts inside) (held.of_part inside) listed

/-- A segment of a place is one of every dotted name directly around it. Induction on the steps
from the root, outward. -/
theorem mem_segments_of_mem_takeWhile (held : root.Holds place)
    (isSegment : place.node.isPart = true) (listed : segment ∈ place.segments) :
    ∀ around ∈ place.ancestors.takeWhile (·.isAny dottedNames), segment ∈ around.segments := by
  induction held with
  | root => simp [Place.root, ancestors, along]
  | @child parent place held below ih =>
    rw [ancestors_of_mem_children below, outward]
    cases dotted : parent.isAny dottedNames with
    | false => simp [dotted]
    | true =>
      have here : segment ∈ parent.segments := by
        rw [segments_of_dotted dotted]
        exact List.mem_flatMap.mpr ⟨place, mem_parts.mpr ⟨below, isSegment⟩, listed⟩
      rw [List.takeWhile_cons_of_pos (by simpa using dotted)]
      exact List.forall_mem_cons.mpr
        ⟨here, ih (isPart_of_isAny dotted (by decide)) here⟩

/-- A name is a segment of the whole dotted name that it belongs to. -/
theorem mem_segments_wholeName (held : root.Holds token) (isName : token.isName = true) :
    root.Holds token.wholeName ∧ token ∈ token.wholeName.segments := by
  have itself : token ∈ token.segments := by simp [segments_of_isName isName]
  have isPart := isPart_of_isAny isName (by decide)
  unfold wholeName
  cases outermost : (token.ancestors.takeWhile (·.isAny dottedNames)).getLast? with
  | none => exact ⟨held, itself⟩
  | some whole =>
    have listed := List.mem_of_getLast? outermost
    exact ⟨held.of_ancestor (List.takeWhile_subset _ listed),
      mem_segments_of_mem_takeWhile held isPart itself whole listed⟩

/-- The dotted name up to a name ends in the name. -/
theorem getLast?_pathTo (held : root.Holds token) (isName : token.isName = true) :
    token.pathTo.getLast? = some token.text := by
  obtain ⟨heldWhole, listed⟩ := mem_segments_wholeName held isName
  have parted := List.takeWhile_append_dropWhile (p := (!token.same ·))
    (l := token.wholeName.segments)
  unfold pathTo
  dsimp only
  cases found : token.wholeName.segments.dropWhile (!token.same ·) with
  | nil =>
    rw [found, List.append_nil] at parted
    rw [← parted] at listed
    have other := List.mem_takeWhile_imp listed
    simp [same] at other
  | cons first after =>
    have isFirst : token.same first = true := by
      have stopped := List.head?_dropWhile_not (!token.same ·) token.wholeName.segments
      simpa [found] using stopped
    have heldFirst : root.Holds first := held_of_mem_segments heldWhole <|
      List.dropWhile_subset (!token.same ·) (found ▸ List.mem_cons_self)
    obtain rfl := (held.same_iff heldFirst).mp isFirst
    rw [found] at parted
    generalize token.wholeName.segments.takeWhile (!token.same ·) = before at parted
    rw [← parted, List.take_append]
    simp

end Place

/-! ## Every part a name can have -/

namespace SourceFile

variable {root : Node} {name parent : Place}

/-- The element of a name in the header of a file is called by it. -/
theorem isCalled_headerElement? {element : Element} (held : root.Holds name)
    (isName : name.isName = true) (header : name.headerElement? = some element) :
    element.IsCalled name.text := by
  obtain ⟨around, _, means⟩ := List.exists_of_findSome?_eq_some header
  split at means
  · exact Option.some.inj means ▸ trivial
  · split at means
    · exact Option.some.inj means ▸ isCalled_completeName (Place.getLast?_pathTo held isName)
    · contradiction

/-- The element of a variable is called by the name of the variable. -/
theorem isCalled_variableElement (declaration : Place) :
    declaration.variableElement.IsCalled declaration.text := by
  unfold Place.variableElement
  split <;> trivial

/-- The element of a method is called by the name of the method. -/
theorem isCalled_methodElement (file : SourceFile) {method : Place} {text : String}
    (declared : method.declaredName? = some text) : (file.methodElement method).IsCalled text := by
  simp [methodElement, declared, Element.IsCalled]

/-- A plain meaning of a name is called by it. -/
theorem isCalled_meaning {element : Element} (held : root.Holds name)
    (isName : name.isName = true) (means : (ofRoot root).meaning name = .plain element) :
    element.IsCalled name.text := by
  have resolves := (ofRoot root).resolves_meaning name
  rw [means] at resolves
  cases resolves with
  | nothing => trivial
  | @declaredType parent above declares named =>
    have child : parent.child? .name = some name :=
      child?_eq_of_hasRole (ofRoot root) held above named
    have called : parent.declaresType name.text = true := by
      simp [Place.declaresType, Place.declaredName?, declares, child]
    exact endsIn_qualifiedName _ called
  | header means => exact isCalled_headerElement? held isName means
  | dotted => exact isCalled_dottedElement (Place.getLast?_pathTo held isName) name
  | @accessed parent _ above isAccess isField named =>
    have child : parent.child? .field = some name :=
      child?_eq_of_hasRole (ofRoot root) held above isField
    exact isCalled_accessNamed? isAccess child named
  | type => exact isCalled_typeElement name

/-- Every element that a name means is called by the name. -/
theorem isCalled_nameElement (held : root.Holds name) (isName : name.isName = true) :
    ((ofRoot root).nameElement name).IsCalled name.text := by
  rw [← element_meaning]
  cases means : (ofRoot root).meaning name with
  | binding declaration =>
    have spelled : declaration.text = name.text := by
      rcases isVariable_of_meaning (ofRoot root) held means with ⟨_, rfl⟩ | ⟨_, found⟩
      · rfl
      · exact found.spelled
    exact spelled ▸ isCalled_variableElement declaration
  | method declaration =>
    exact isCalled_methodElement _ (declaredName?_of_meaning (ofRoot root) held means)
  | constructor declaration => trivial
  | plain element => exact isCalled_meaning held isName means

/-- The use of a class inside another is called by its name, and means the qualified name. -/
theorem isCalled_nested_use :
    ∃ name, (parse "package p; class A { class B { } B b; }").Holds name ∧
      name.isName = true ∧ name.text = "B" ∧
      (ofRoot (parse "package p; class A { class B { } B b; }")).nameElement name =
        .type "p.A.B" ∧
      (Element.type "p.A.B").IsCalled "B" := by
  have found : ((parse "package p; class A { class B { } B b; }").places []).any
      (fun name => name.isName && name.text == "B" &&
        (ofRoot (parse "package p; class A { class B { } B b; }")).nameElement name ==
          .type "p.A.B" && name.parent?.any (·.is .fieldDeclaration)) = true := by
    decide +kernel
  obtain ⟨name, held, found⟩ := Node.Holds.exists_held_of_any found
  simp only [Bool.and_eq_true, beq_iff_eq] at found
  obtain ⟨⟨⟨isName, spelled⟩, means⟩, _⟩ := found
  have called := isCalled_nameElement held isName
  rw [means, spelled] at called
  exact ⟨name, held, isName, spelled, means, called⟩

end SourceFile

end CaretName
