import CaretName.Proofs.SourceFile.Naming
import CaretName.Proofs.SourceFile.Receiver

/-!
# Declarations behind qualified names

A type that a simple name means is searched for members under its qualified name: the first
declaration of that name in the file is taken for it. Types declared as members, up to the top
of the file, never share a qualified name, so among them this is the declaration that was
meant. Local types go by their simple names, wherever they are declared, and an earlier one is
taken for a later one.
-/
namespace CaretName

open Grammar

/-! ## Joined names -/

/-- A name has no dots. -/
theorem IsWord.dotless {text : String} (word : IsWord text) : '.' ∉ text.toList := by
  intro inside
  have continues := word.2 '.' inside
  revert continues
  decide

/-- Names without dots can be told from what they are joined to. -/
theorem intercalate_injective {names others : List String}
    (words : ∀ name ∈ names, IsWord name) (words' : ∀ name ∈ others, IsWord name)
    (filled : names ≠ []) (filled' : others ≠ [])
    (same : ".".intercalate names = ".".intercalate others) : names = others := by
  have dot : (".".toList : List Char) = ['.'] := rfl
  have parted : ∀ names : List String, names ≠ [] → (∀ name ∈ names, IsWord name) →
      (".".intercalate names).toList.splitOn '.' = names.map String.toList := by
    intro names filled words
    rw [String.toList_intercalate, dot]
    refine List.splitOn_intercalate '.' (fun chars listed => ?_) (by simpa using filled)
    obtain ⟨name, inside, rfl⟩ := List.mem_map.mp listed
    exact (words name inside).dotless
  have mapped : names.map String.toList = others.map String.toList := by
    rw [← parted names filled words, ← parted others filled' words', same]
  exact (List.map_inj_right fun _ _ => String.toList_inj.mp).mp mapped

/-- The package does not blur what it qualifies. -/
theorem Header.qualify_injective {header : Header} {name other : String}
    (same : header.qualify name = header.qualify other) : name = other := by
  unfold qualify at same
  split at same
  · have chars := congrArg String.toList same
    simp only [String.toList_append, List.append_cancel_left_eq] at chars
    exact String.toList_inj.mp chars
  · exact same

/-! ## Types declared as members -/

/-- No two types declared in the same body, block or file share a name. -/
def Node.distinctSiblings (root : Node) : Bool :=
  (root.places []).all fun around =>
    !around.isAny memberContainers || around.members.all fun type =>
      around.members.all fun other =>
        !type.isTypeDeclaration || !other.isTypeDeclaration || type.same other ||
          type.declaredName? != other.declaredName?

/-- A type declared at the top of a file, or as a member of such a type, and so on. -/
inductive Place.IsMemberType (root : Node) : Place → Prop
  /-- At the top of the file. -/
  | top {type : Place} (below : type ∈ (Place.root root).children)
    (declares : type.isTypeDeclaration = true) : IsMemberType root type
  /-- In the body of a type. -/
  | nested {outer type : Place} (around : IsMemberType root outer)
    (inside : type ∈ outer.scopeMembers) (declares : type.isTypeDeclaration = true) :
    IsMemberType root type

/-- Whether each type is at the top of a file or in the body of a type at the top. -/
def Node.isShallow (root : Node) : Bool :=
  (SourceFile.ofRoot root).allTypes.all fun type =>
    (Place.root root).children.any fun outer =>
      outer.isTypeDeclaration && (outer :: outer.scopeMembers).any type.same

namespace SourceFile

variable {root : Node} {place type other outer name : Place}

/-- Types of one body that have the same name are one type. -/
theorem eq_of_mem_members (wf : WellFormed root) (distinct : root.distinctSiblings = true)
    {around : Place} (held : root.Holds around) (container : around.isAny memberContainers = true)
    (inside : type ∈ around.members) (inside' : other ∈ around.members)
    (declares : type.isTypeDeclaration = true) (declares' : other.isTypeDeclaration = true)
    (heldType : root.Holds type) (heldOther : root.Holds other)
    (same : type.declaredName? = other.declaredName?) : type = other := by
  have listed := wf.mem_places held (Place.isPart_of_isAny container (by decide))
  have checked := List.all_eq_true.mp distinct around listed
  simp only [container, Bool.not_true, Bool.false_or, List.all_eq_true] at checked
  have here := checked type inside other inside'
  simp only [declares, declares', same, Bool.not_true, Bool.false_or, bne_self_eq_false,
    Bool.or_false] at here
  exact (heldType.same_iff heldOther).mp here

/-- A type at the top of the file is a member of the file. -/
theorem mem_members_of_top (below : type ∈ (Place.root root).children)
    (declares : type.isTypeDeclaration = true) : type ∈ (Place.root root).members := by
  have noBody : type.is .enumBodyDeclarations = false := Place.is_eq_false declares (by decide)
  refine List.mem_flatMap.mpr ⟨type,
    Place.mem_parts.mpr ⟨below, Place.isPart_of_isAny declares (by decide)⟩, ?_⟩
  simp [noBody]

/-- The members of a type are those of its body. -/
theorem scopeMembers_eq (wf : WellFormed root) (held : root.Holds place)
    (declares : place.isTypeDeclaration = true) (inside : type ∈ place.scopeMembers) :
    ∃ body, root.Holds body ∧ body.isAny bodyConstructs = true ∧
      place.scopeMembers = body.members := by
  have noBody : place.is .classBody = false := Place.is_eq_false declares (by decide)
  cases found : place.child? .body with
  | none => simp [Place.scopeMembers, Place.typeBody?, noBody, found] at inside
  | some body =>
    exact ⟨body, held.of_child? found, wf.is_body held declares found,
      by simp [Place.scopeMembers, Place.typeBody?, noBody, found]⟩

/-- A type declared as a member belongs to the tree. -/
theorem held_of_isMemberType (wf : WellFormed root) (member : Place.IsMemberType root type) :
    root.Holds type ∧ type.isTypeDeclaration = true := by
  induction member with
  | top below declares => exact ⟨.child .root below, declares⟩
  | nested around inside declares ih =>
    exact ⟨(ancestors_of_mem_scopeMembers wf ih.1 ih.2 inside).1, declares⟩

/-- A declared type has a name, which is a word. -/
theorem exists_word (wf : WellFormed root) (held : root.Holds type)
    (declares : type.isTypeDeclaration = true) :
    ∃ name, type.child? .name = some name ∧ IsWord name.text := by
  obtain ⟨name, found, isIdentifier⟩ := wf.exists_name held (Place.isAny_mono declares (by decide))
  have isName := isName_of_identifier isIdentifier
  exact ⟨name, found, (wf.name_token (held.of_child? found) isName).2.2⟩

/-- The path of a type at the top of the file is its name. -/
theorem path_of_top (wf : WellFormed root) (below : type ∈ (Place.root root).children)
    (declares : type.isTypeDeclaration = true) : ∃ name, type.child? .name = some name ∧
      IsWord name.text ∧ scheme.path type = ⟨[name.text], false, "."⟩ := by
  have held : root.Holds type := .child .root below
  obtain ⟨name, found, word⟩ := exists_word wf held declares
  refine ⟨name, found, word, path_of_naming?_eq_none declares found ?_⟩
  have listed := Place.isAny_of_is wf.root_is_program (List.mem_singleton_self _)
  have noType : (Place.root root).isTypeDeclaration = false :=
    Place.isAny_eq_false listed (by decide)
  have noBoundary : scheme.isBoundary (Place.root root) = false :=
    Place.isAny_eq_false listed (by decide)
  have chain : type.ancestors = [Place.root root] := by
    rw [Place.ancestors_of_mem_children below]
    rfl
  simp [naming?, chain, noType, noBoundary]

/-- The path of a type in the body of another extends the path of that one by its name. -/
theorem path_of_nested (wf : WellFormed root) (held : root.Holds outer)
    (encloses : outer.isTypeDeclaration = true) (inside : type ∈ outer.scopeMembers)
    (declares : type.isTypeDeclaration = true) : ∃ name, type.child? .name = some name ∧
      IsWord name.text ∧ scheme.path type =
        { scheme.path outer with segments := (scheme.path outer).segments ++ [name.text] } := by
  have heldType := (ancestors_of_mem_scopeMembers wf held encloses inside).1
  obtain ⟨name, found, word⟩ := exists_word wf heldType declares
  exact ⟨name, found, word, path_of_naming?_eq_some declares found
    (naming?_of_mem_scopeMembers wf held encloses inside)⟩

/-- The path of a type declared as a member is not cut off, and made of names. -/
theorem path_of_isMemberType (wf : WellFormed root) (member : Place.IsMemberType root type) :
    (scheme.path type).isLocal = false ∧ (scheme.path type).segments ≠ [] ∧
      ∀ segment ∈ (scheme.path type).segments, IsWord segment := by
  induction member with
  | top below declares =>
    obtain ⟨name, _, word, path⟩ := path_of_top wf below declares
    simp [path, word]
  | nested around inside declares ih =>
    obtain ⟨held, encloses⟩ := held_of_isMemberType wf around
    obtain ⟨name, _, word, path⟩ := path_of_nested wf held encloses inside declares
    obtain ⟨global, _, words⟩ := ih
    simpa [path, global, or_imp, forall_and, word] using words

/-- Types declared as members are told apart by their paths. Induction on how the first is
declared; what the second is declared in must have a path of the same length. -/
theorem eq_of_segments_eq (wf : WellFormed root) (distinct : root.distinctSiblings = true)
    (member : Place.IsMemberType root type) (member' : Place.IsMemberType root other)
    (same : (scheme.path type).segments = (scheme.path other).segments) : type = other := by
  induction member generalizing other with
  | @top type below declares =>
    obtain ⟨name, found, _, path⟩ := path_of_top wf below declares
    cases member' with
    | top below' declares' =>
      obtain ⟨name', found', _, path'⟩ := path_of_top wf below' declares'
      have spelled : name.text = name'.text := by simpa [path, path'] using same
      have container : (Place.root root).isAny memberContainers = true :=
        Place.isAny_of_is wf.root_is_program (by decide)
      exact eq_of_mem_members wf distinct .root container (mem_members_of_top below declares)
        (mem_members_of_top below' declares') declares declares' (.child .root below)
        (.child .root below') (by simp [Place.declaredName?, found, found', spelled])
    | nested around' inside' declares' =>
      obtain ⟨held', encloses'⟩ := held_of_isMemberType wf around'
      obtain ⟨name', _, _, path'⟩ := path_of_nested wf held' encloses' inside' declares'
      obtain ⟨_, filled', _⟩ := path_of_isMemberType wf around'
      have lengths := congrArg List.length same
      simp [path, path', filled'] at lengths
  | @nested outer type around inside declares ih =>
    obtain ⟨held, encloses⟩ := held_of_isMemberType wf around
    obtain ⟨name, found, _, path⟩ := path_of_nested wf held encloses inside declares
    cases member' with
    | top below' declares' =>
      obtain ⟨name', _, _, path'⟩ := path_of_top wf below' declares'
      obtain ⟨_, filled, _⟩ := path_of_isMemberType wf around
      have lengths := congrArg List.length same
      simp [path, path', filled] at lengths
    | @nested outer' _ around' inside' declares' =>
      obtain ⟨held', encloses'⟩ := held_of_isMemberType wf around'
      obtain ⟨name', found', _, path'⟩ := path_of_nested wf held' encloses' inside' declares'
      rw [path, path'] at same
      obtain ⟨outers, names⟩ := List.append_inj' same rfl
      obtain rfl := ih around' outers
      obtain ⟨body, heldBody, isBody, members⟩ := scopeMembers_eq wf held encloses inside
      have spelled : name.text = name'.text := by simpa using names
      rw [members] at inside inside'
      exact eq_of_mem_members wf distinct heldBody (Place.isAny_mono isBody (by decide)) inside
        inside' declares declares' (Place.held_of_mem_members heldBody inside)
        (Place.held_of_mem_members heldBody inside')
        (by simp [Place.declaredName?, found, found', spelled])

/-- Types declared as members are told apart by their qualified names. -/
theorem eq_of_qualifiedName_eq (wf : WellFormed root) (distinct : root.distinctSiblings = true)
    (member : Place.IsMemberType root type) (member' : Place.IsMemberType root other)
    (file : SourceFile) (same : file.qualifiedName type = file.qualifiedName other) :
    type = other := by
  obtain ⟨global, filled, words⟩ := path_of_isMemberType wf member
  obtain ⟨global', filled', words'⟩ := path_of_isMemberType wf member'
  simp only [qualifiedName, global, global', Bool.false_eq_true, ↓reduceIte] at same
  exact eq_of_segments_eq wf distinct member member' <|
    intercalate_injective words words' filled filled' (Header.qualify_injective same)

/-! ## From a name to a declaration and back -/

/-- The declaration that a simple name means belongs to the tree and declares a type. -/
theorem held_of_visibleType? {site : Place} {text : String} (held : root.Holds site)
    (visible : site.visibleType? text = some type) :
    root.Holds type ∧ type.isTypeDeclaration = true := by
  obtain ⟨around, outward, here⟩ := List.exists_of_findSome?_eq_some visible
  have heldAround := held.of_outward outward
  unfold Place.typeNamedHere? at here
  split at here
  · next declares =>
    obtain rfl := Option.some.inj here
    exact ⟨heldAround, (Bool.and_eq_true_iff.mp declares).1⟩
  · split at here
    · have declares : type.declaresType text = true := List.find?_some here
      exact ⟨Place.held_of_mem_members heldAround (List.mem_of_find?_eq_some here),
        (Bool.and_eq_true_iff.mp declares).1⟩
    · contradiction

/-- A declared type is listed among all types of the file. -/
theorem mem_allTypes (wf : WellFormed root) (held : root.Holds type)
    (declares : type.isTypeDeclaration = true) : type ∈ (ofRoot root).allTypes := by
  rw [allTypes_eq]
  exact List.mem_filter.mpr
    ⟨wf.mem_places held (Place.isPart_of_isAny declares (by decide)), declares⟩

/-- Where no type is declared further inside, all types are declared as members. -/
theorem isMemberType_of_isShallow (wf : WellFormed root) (shallow : root.isShallow = true)
    (held : root.Holds type) (declares : type.isTypeDeclaration = true) :
    Place.IsMemberType root type := by
  have checked := List.all_eq_true.mp shallow type (mem_allTypes wf held declares)
  simp only [List.any_eq_true, Bool.and_eq_true] at checked
  obtain ⟨outer, below, encloses, found, listed, same⟩ := checked
  have top : Place.IsMemberType root outer := .top below encloses
  rcases List.mem_cons.mp listed with rfl | inside
  · obtain rfl := (held.same_iff (.child .root below)).mp same
    exact top
  · obtain ⟨heldFound, _⟩ := ancestors_of_mem_scopeMembers wf (.child .root below) encloses inside
    obtain rfl := (held.same_iff heldFound).mp same
    exact .nested top inside declares

/-- A simple name that means a declaration is searched for under the qualified name of it. -/
theorem typeDeclaration?_eq {file : SourceFile} (isType : name.is .typeIdentifier = true)
    (free : name.seesTypeVariable name.text = false)
    (visible : name.visibleType? name.text = some type) :
    file.typeDeclaration? name = file.typeNamed? (file.qualifiedName type) := by
  have others := Place.isAny_of_is isType (List.mem_singleton_self _)
  have noAnnotation : name.is .annotatedType = false := Place.is_eq_false others (by decide)
  have noArguments : name.is .genericType = false := Place.is_eq_false others (by decide)
  simp [typeDeclaration?, rawTypeDeclaration?, Place.unannotated, noAnnotation, noArguments,
    isType, lookupType?, free, visible]

/-- The declaration that members are searched in is the first of the qualified name. It is the
one that lexical scoping means exactly if no declaration before it has that name, and it is
another only if one of the two is no member type. -/
theorem typeDeclaration?_identity (wf : WellFormed root) (held : root.Holds name)
    (isType : name.is .typeIdentifier = true) (free : name.seesTypeVariable name.text = false)
    (visible : name.visibleType? name.text = some type) :
    ((ofRoot root).typeDeclaration? name = some type ↔
      ∃ earlier later, (ofRoot root).allTypes = earlier ++ type :: later ∧
        ∀ other ∈ earlier, (ofRoot root).qualifiedName other ≠ (ofRoot root).qualifiedName type) ∧
    ∃ found, (ofRoot root).typeDeclaration? name = some found ∧
      (ofRoot root).qualifiedName found = (ofRoot root).qualifiedName type ∧
      (root.distinctSiblings = true → Place.IsMemberType root type →
        Place.IsMemberType root found → found = type) := by
  obtain ⟨heldType, declares⟩ := held_of_visibleType? held visible
  rw [typeDeclaration?_eq isType free visible]
  constructor
  · rw [typeNamed?, List.find?_eq_some_iff_append]
    simp
  · have some_type : ((ofRoot root).typeNamed? ((ofRoot root).qualifiedName type)).isSome :=
      List.find?_isSome.mpr ⟨type, mem_allTypes wf heldType declares, by simp⟩
    obtain ⟨found, named⟩ := Option.isSome_iff_exists.mp some_type
    have same := (typeNamed?_eq_some named).2.2
    exact ⟨found, named, same, fun distinct member member' =>
      eq_of_qualifiedName_eq wf distinct member' member _ same⟩

/-- Two classes, each with a member class of the same name, which the second one uses. -/
def sameNamedMembers : String :=
  "package p; class A { class C { int x; } } class B { class C { int y; } C c; }"

/-- The use in the second class is searched for members in the member class of the second, although
the member class of the first comes before it. -/
theorem typeDeclaration?_identity_sameNamed :
    accepts sameNamedMembers = true ∧ (parse sameNamedMembers).distinctSiblings = true ∧
      ∃ name type other, (parse sameNamedMembers).Holds name ∧
        name.visibleType? "C" = some type ∧
        (ofRoot (parse sameNamedMembers)).qualifiedName type = "p.B.C" ∧
        other ∈ (ofRoot (parse sameNamedMembers)).allTypes ∧ other.declaresType "C" = true ∧
        (ofRoot (parse sameNamedMembers)).qualifiedName other = "p.A.C" ∧
        (ofRoot (parse sameNamedMembers)).typeDeclaration? name = some type := by
  have used : (accepts sameNamedMembers && ((parse sameNamedMembers).places []).any fun name =>
      name.is .typeIdentifier && name.text == "C" && !name.seesTypeVariable name.text &&
        (name.visibleType? name.text).any fun type =>
          (ofRoot (parse sameNamedMembers)).qualifiedName type == "p.B.C" &&
            (ofRoot (parse sameNamedMembers)).allTypes.any fun other => other.declaresType "C" &&
              (ofRoot (parse sameNamedMembers)).qualifiedName other == "p.A.C") = true := by
    decide +kernel
  have distinct : (parse sameNamedMembers).distinctSiblings = true := by decide +kernel
  have shallow : (parse sameNamedMembers).isShallow = true := by decide +kernel
  obtain ⟨accepted, name, held, used⟩ := exists_held_of_search used
  simp only [Bool.and_eq_true, beq_iff_eq, Bool.not_eq_true', Option.any_eq_true, List.any_eq_true]
    at used
  obtain ⟨⟨⟨isType, spelled⟩, free⟩, type, visible, second, other, listed, declares, first⟩ := used
  have wf := wellFormed_parse accepted
  obtain ⟨heldType, declaresType⟩ := held_of_visibleType? held visible
  obtain ⟨_, found, declared, _, same⟩ :=
    typeDeclaration?_identity wf held isType free visible
  obtain ⟨_, named⟩ := typeNamed?_of_typeDeclaration? declared
  obtain ⟨heldFound, declaresFound, _⟩ := typeNamed?_eq_some named
  obtain rfl := same distinct (isMemberType_of_isShallow wf shallow heldType declaresType)
    (isMemberType_of_isShallow wf shallow heldFound declaresFound)
  exact ⟨accepted, distinct, name, found, other, held, spelled ▸ visible, second, listed, declares,
    first, declared⟩

/-- Of two local classes of one name the first is searched for members of the second. -/
theorem typeDeclaration?_takes_earlier_local :
    accepts "class A { void f() { class L { } } void g() { class L { } L l; } }" = true ∧
      (parse "class A { void f() { class L { } } void g() { class L { } L l; } }").distinctSiblings
        = true ∧
      ∃ name type found,
        (parse "class A { void f() { class L { } } void g() { class L { } L l; } }").Holds name ∧
        name.is .typeIdentifier = true ∧ name.seesTypeVariable name.text = false ∧
        name.visibleType? name.text = some type ∧
        (ofRoot (parse
          "class A { void f() { class L { } } void g() { class L { } L l; } }")).typeDeclaration?
            name = some found ∧ found ≠ type := by
  have used : ((parse
      "class A { void f() { class L { } } void g() { class L { } L l; } }").places []).any
        (fun name => name.is .typeIdentifier && !name.seesTypeVariable name.text &&
          (name.visibleType? name.text).any fun type => ((ofRoot (parse
            "class A { void f() { class L { } } void g() { class L { } L l; } }")).typeDeclaration?
              name).any fun found => !found.same type) = true := by decide +kernel
  obtain ⟨name, held, used⟩ := Node.Holds.exists_held_of_any used
  simp only [Bool.and_eq_true, Bool.not_eq_true', Option.any_eq_true] at used
  obtain ⟨⟨isType, free⟩, type, visible, found, declared, apart⟩ := used
  refine ⟨by decide +kernel, by decide +kernel, name, type, found, held, isType, free, visible,
    declared, ?_⟩
  rintro rfl
  simp [Place.same] at apart

end SourceFile

end CaretName
