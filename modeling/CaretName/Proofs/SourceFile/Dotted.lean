import CaretName.Proofs.Grammar.Contents
import CaretName.Proofs.SourceFile.Coherence
import CaretName.Proofs.SourceFile.Fidelity
import CaretName.Proofs.Tree.Outward

/-!
# Dotted names of types

A caret on a segment of a dotted name of a type reads the name up to that segment. If nothing
declares the first segment, two segments or more are read as a package and types in it: they name
a type if the first segment or the last one is capitalised. The first segment alone is read as a
simple name, so that it names a type of the package of the file even if it is not capitalised.
-/
namespace CaretName

open Grammar Grammar.WellFormed

namespace Place

variable {root : Node} {path site other segment : Place}

/-! ## The segments of a dotted name -/

/-- From a segment the way out leads through dotted names only, until it leaves the name that the
segment belongs to. Induction on the node of the name. -/
theorem chain_of_mem_segments (listed : segment ∈ path.segments) :
    segment.isName = true ∧ ∃ between, segment.ancestors = between ++ path.ancestors ∧
      (∀ inner ∈ between, inner.isAny dottedNames = true) ∧
      between.getLast?.getD segment = path := by
  induction path using Place.child_induction with
  | step path ih =>
    rcases mem_segments_cases listed with ⟨isName, rfl⟩ | ⟨dotted, part, inside, listed⟩
    · exact ⟨isName, [], rfl, by simp, rfl⟩
    · have below := mem_children_of_mem_parts inside
      obtain ⟨named, between, chain, dots, _⟩ := ih part below listed
      refine ⟨named, between ++ [path], ?_, ?_, by simp⟩
      · rw [chain, ancestors_of_mem_children below, List.append_assoc]
        rfl
      · exact List.forall_mem_append.mpr ⟨dots, List.forall_mem_singleton.mpr dotted⟩

/-- Only names and dotted names have segments. -/
theorem isAny_of_mem_segments (listed : segment ∈ path.segments) :
    path.isAny (nameConstructs ++ dottedNames) = true := by
  rcases mem_segments_cases listed with ⟨isName, _⟩ | ⟨dotted, _⟩
  · exact isAny_mono isName (by decide)
  · exact isAny_mono dotted (by decide)

/-- A name lies around each of its segments. -/
theorem mem_outward_of_mem_segments (listed : segment ∈ path.segments) :
    path ∈ segment.outward := by
  induction path using Place.child_induction with
  | step path ih =>
    rcases mem_segments_cases listed with ⟨_, rfl⟩ | ⟨_, part, inside, listed⟩
    · exact List.mem_cons_self
    · have below := mem_children_of_mem_parts inside
      exact mem_outward_trans (mem_outward_of_mem_children below) (ih part below listed)

/-- The segments of a name are different places. The parts of a dotted name have none in common,
as only one of them lies around a segment. -/
theorem nodup_segments (path : Place) : path.segments.Nodup := by
  induction path using Place.child_induction with
  | step path ih =>
    cases isName : path.isName with
    | true =>
      rw [segments_of_isName isName]
      exact List.pairwise_singleton _ _
    | false =>
      cases dotted : path.isAny dottedNames with
      | true =>
        rw [segments_of_dotted dotted]
        refine List.pairwise_flatMap.mpr
          ⟨fun part inside => ih part (mem_children_of_mem_parts inside), ?_⟩
        have parts : path.parts.Nodup := (nodup_children path).filter _
        refine parts.imp_of_mem fun {one two} first second apart segment inOne other inTwo => ?_
        have same : one.depth = two.depth := by
          rw [depth_of_mem_children (mem_children_of_mem_parts first),
            depth_of_mem_children (mem_children_of_mem_parts second)]
        rintro rfl
        exact apart (eq_of_mem_outward (mem_outward_of_mem_segments inOne)
          (mem_outward_of_mem_segments inTwo) same)
      | false =>
        rw [segments_eq_nil isName dotted]
        exact List.Pairwise.nil

/-- The whole name of a segment is the dotted name that no other surrounds. -/
theorem wholeName_of_mem_segments (listed : segment ∈ path.segments)
    (whole : path.parent?.any (·.isAny dottedNames) = false) : segment.wholeName = path := by
  obtain ⟨_, between, chain, dots, last⟩ := chain_of_mem_segments listed
  have stops : path.ancestors.takeWhile (·.isAny dottedNames) = [] := by
    obtain ⟨node, above⟩ := path
    cases above with
    | nil => rfl
    | cons step above =>
      refine List.takeWhile_cons_of_neg (Bool.eq_false_iff.mp ?_)
      simpa [parent?] using whole
  rw [wholeName, chain, List.takeWhile_append_of_pos dots, stops, List.append_nil, last]

/-- The name up to a segment consists of the segments before it and itself. -/
theorem pathTo_of_segments (held : root.Holds path)
    (whole : path.parent?.any (·.isAny dottedNames) = false) {before after : List Place}
    (split : path.segments = before ++ segment :: after) :
    segment.pathTo = (before ++ [segment]).map text := by
  have listed : segment ∈ path.segments := by simp [split]
  have held_of {one : Place} (inside : one ∈ path.segments) : root.Holds one :=
    held_of_mem_segments held inside
  have unlike : ∀ one ∈ before, (!segment.same one) = true := by
    intro one earlier
    rw [Bool.not_eq_true', Bool.eq_false_iff]
    intro again
    obtain rfl := ((held_of listed).same_iff (held_of (by simp [split, earlier]))).mp again
    have different := nodup_segments path
    rw [split, List.nodup_append] at different
    exact different.2.2 segment earlier segment List.mem_cons_self rfl
  have stops : ∀ rest, (segment :: rest).takeWhile (!segment.same ·) = [] := by
    simp [same]
  have front : path.segments.takeWhile (!segment.same ·) = before := by
    rw [split, List.takeWhile_append_of_pos unlike, stops, List.append_nil]
  unfold pathTo
  dsimp only
  rw [wholeName_of_mem_segments listed whole, front, split, List.take_append]
  simp

/-- What the name of a type is made of names types. Induction on the node of the name. -/
theorem is_typeIdentifier_of_mem_segments (wf : WellFormed root) (held : root.Holds path)
    (isType : path.isAny (.typeIdentifier :: typePaths) = true) (listed : segment ∈ path.segments) :
    segment.is .typeIdentifier = true := by
  induction path using Place.child_induction with
  | step path ih =>
    rcases mem_segments_cases listed with ⟨isName, rfl⟩ | ⟨dotted, part, inside, listed⟩
    · rcases isAny_cons.mp isType with isIdentifier | isPath
      · exact isIdentifier
      · have noPath : segment.isAny typePaths = false := isAny_eq_false isName (by decide)
        rw [isPath] at noPath
        contradiction
    · rcases isAny_cons.mp isType with isIdentifier | isPath
      · have noDots : path.isAny dottedNames = false :=
          isAny_eq_false (isAny_of_is isIdentifier (List.mem_singleton_self _)) (by decide)
        rw [dotted] at noDots
        contradiction
      · have named := isAny_of_mem_segments listed
        exact ih part (mem_children_of_mem_parts inside) (held.of_part inside)
          (wf.isAny_typePaths_of_part held isPath inside named) listed

/-! ## Looking up from a segment -/

/-- Names and dotted names declare no type parameter. -/
theorem seesTypeVariable_of_chain {name : String} {inside around : List Place}
    (chain : site.outward = inside ++ around)
    (names : ∀ inner ∈ inside, inner.isAny (nameConstructs ++ dottedNames) = true) :
    seesTypeVariable name site = around.any fun place =>
      place.isAny genericDeclarations && place.typeParameterNames.contains name := by
  have none : inside.any (fun place =>
      place.isAny genericDeclarations && place.typeParameterNames.contains name) = false := by
    refine List.any_eq_false.mpr fun inner listed => ?_
    have other : inner.isAny genericDeclarations = false :=
      isAny_eq_false (names inner listed) (by decide)
    simp [other]
  rw [seesTypeVariable, chain, List.any_append, none, Bool.false_or]

/-- Names and dotted names declare no type. -/
theorem visibleType?_of_chain {name : String} {inside around : List Place}
    (chain : site.outward = inside ++ around)
    (names : ∀ inner ∈ inside, inner.isAny (nameConstructs ++ dottedNames) = true) :
    site.visibleType? name = around.findSome? (typeNamedHere? name) := by
  have none : inside.findSome? (typeNamedHere? name) = none := by
    refine List.findSome?_eq_none_iff.mpr fun inner listed => ?_
    have noType : inner.isTypeDeclaration = false := isAny_eq_false (names inner listed) (by decide)
    have noMembers : inner.isAny memberContainers = false :=
      isAny_eq_false (names inner listed) (by decide)
    simp [typeNamedHere?, declaresType, noType, noMembers]
  rw [visibleType?, chain, List.findSome?_append, none, Option.none_or]

end Place

namespace SourceFile

variable {root : Node} {path segment : Place}

/-- From its segments a type is looked up as from the whole name. -/
theorem lookupType?_of_mem_segments (file : SourceFile) (name : String)
    (listed : segment ∈ path.segments) :
    file.lookupType? name segment = file.lookupType? name path := by
  obtain ⟨isName, between, chain, dots, _⟩ := Place.chain_of_mem_segments listed
  have inner : segment.outward = (segment :: between) ++ path.ancestors := by
    rw [Place.outward, chain, List.cons_append]
  have outer : path.outward = [path] ++ path.ancestors := rfl
  have names : ∀ one ∈ segment :: between, one.isAny (nameConstructs ++ dottedNames) = true :=
    List.forall_mem_cons.mpr ⟨Place.isAny_mono isName (by decide),
      fun one within => Place.isAny_mono (dots one within) (by decide)⟩
  have itself : ∀ one ∈ [path], one.isAny (nameConstructs ++ dottedNames) = true :=
    List.forall_mem_singleton.mpr (Place.isAny_of_mem_segments listed)
  simp only [lookupType?, Place.seesTypeVariable_of_chain inner names,
    Place.seesTypeVariable_of_chain outer itself, Place.visibleType?_of_chain inner names,
    Place.visibleType?_of_chain outer itself]

/-- At its segments a dotted name means what it means as a whole. -/
theorem dottedElement_of_mem_segments (file : SourceFile) (names : List String)
    (listed : segment ∈ path.segments) :
    file.dottedElement names segment = file.dottedElement names path := by
  cases names with
  | nil => rfl
  | cons first rest =>
    simp only [dottedElement, lookupType?_of_mem_segments file first listed]

/-- A dotted name whose first segment nothing declares belongs to the package of the file if that
segment is capitalised, and is complete otherwise. -/
theorem dottedElement_of_unknown {file : SourceFile} {first : String} {site : Place}
    (unknown : file.lookupType? first site = none) (rest : List String) :
    file.dottedElement (first :: rest) site =
      if isCapitalised first then
        .type (rest.foldl (fun name part => name ++ "." ++ part) (file.header.qualify first))
      else completeName (first :: rest) := by
  simp only [dottedElement, unknown]

/-- A simple name that nothing declares belongs to the package of the file. -/
theorem typeElement_of_unknown {file : SourceFile}
    (unknown : file.lookupType? segment.text segment = none) :
    file.typeElement segment =
      if segment.text = "var" then .other else .type (file.header.qualify segment.text) := by
  simp [typeElement, typeMeaning, unknown]

/-- A dotted name of segments that are not capitalised is no type. -/
theorem dottedElement_eq_other {file : SourceFile} {names : List String} {site : Place}
    (unknown : ∀ first ∈ names.head?, file.lookupType? first site = none)
    (lower : ∀ name ∈ names, isCapitalised name = false) :
    file.dottedElement names site = .other := by
  cases names with
  | nil => rfl
  | cons first rest =>
    have noType : (first :: rest).getLast?.any isCapitalised = false := by
      rw [Option.any_eq_false]
      intro last found
      simp [lower last (List.mem_of_getLast? found)]
    rw [dottedElement_of_unknown (unknown first rfl), lower first List.mem_cons_self, completeName,
      noType]
    rfl

/-- In a dotted name the name of a type means what the header says, or else the dotted name up to
it; where that is just the name itself, it is read as a simple name. -/
theorem nameElement_of_dotted (file : SourceFile) {parent : Place}
    (isType : segment.is .typeIdentifier = true) (above : segment.parent? = some parent)
    (dotted : parent.isAny dottedNames = true) :
    file.nameElement segment = segment.headerElement?.getD
      (if 1 < segment.pathTo.length then file.dottedElement segment.pathTo segment
        else file.typeElement segment) := by
  have use := declaresVariable_eq_false above (Place.isAny_eq_false dotted (by decide))
  have plain : file.roleElement segment parent = file.typeElement segment := by
    rw [roleElement_eq_plain file (Place.isAny_eq_false dotted (by decide)), plainNameElement,
      if_pos isType]
  rw [nameElement_of_kinds file above (Place.isAny_eq_false dotted (by decide)), use,
    if_neg Bool.false_ne_true, plain, dotted]
  simp

/-- In the header of the file the name of a type is found in the declaration of the package only,
where it means nothing. -/
theorem headerElement?_of_type (wf : WellFormed root) (held : root.Holds segment)
    (isType : segment.is .typeIdentifier = true) :
    ((∃ around ∈ segment.ancestors, around.is .packageDeclaration = true) →
      segment.headerElement? = some .other) ∧
    ((∀ around ∈ segment.ancestors, around.is .packageDeclaration = false) →
      segment.headerElement? = none) := by
  have noImport {around : Place} (ancestor : around ∈ segment.ancestors) :
      around.is .importDeclaration = false :=
    wf.is_importDeclaration_eq_false held (Place.isAny_of_is isType List.mem_cons_self) ancestor
  constructor
  · rintro ⟨around, ancestor, isPackage⟩
    cases header : segment.headerElement? with
    | none =>
      have outside := headerElement?_eq_none.mp header around ancestor
      rw [Place.isAny_of_is isPackage (by decide)] at outside
      contradiction
    | some element =>
      obtain ⟨other, ancestor', means⟩ := List.exists_of_findSome?_eq_some header
      rw [noImport ancestor'] at means
      split at means
      · exact means.symm
      · contradiction
  · intro outside
    refine headerElement?_eq_none.mpr fun around ancestor => ?_
    rw [Bool.eq_false_iff]
    intro header
    rcases Place.isAny_cons.mp header with isPackage | header
    · rw [outside around ancestor] at isPackage
      contradiction
    · rcases Place.isAny_cons.mp header with isImport | none
      · rw [noImport ancestor] at isImport
        contradiction
      · contradiction

/-- A segment of the name of a type means what the header says, or else what is read of the name:
the first segment as a simple name, any other as the dotted name up to it. -/
theorem nameElement_of_split (wf : WellFormed root) (held : root.Holds path)
    (isPath : path.isAny typePaths = true)
    (whole : path.parent?.any (·.isAny dottedNames) = false) {before after : List Place}
    (split : path.segments = before ++ segment :: after) :
    (ofRoot root).nameElement segment = segment.headerElement?.getD
      (if before = [] then (ofRoot root).typeElement segment
        else (ofRoot root).dottedElement ((before ++ [segment]).map Place.text) path) := by
  have listed : segment ∈ path.segments := by simp [split]
  have isType := Place.is_typeIdentifier_of_mem_segments wf held
    (Place.isAny_mono isPath (by decide)) listed
  obtain ⟨isName, between, chain, dots, last⟩ := Place.chain_of_mem_segments listed
  obtain ⟨parent, rest, rfl⟩ : ∃ parent rest, between = parent :: rest := by
    refine List.exists_cons_of_ne_nil ?_
    rintro rfl
    obtain rfl : segment = path := by simpa using last
    have noPath : segment.isAny typePaths = false := Place.isAny_eq_false isName (by decide)
    rw [isPath] at noPath
    contradiction
  have above : segment.parent? = some parent := by rw [Place.parent?_eq_head?, chain]; rfl
  rw [nameElement_of_dotted _ isType above (dots parent List.mem_cons_self),
    Place.pathTo_of_segments held whole split, dottedElement_of_mem_segments _ _ listed]
  cases before <;> simp

/-- A simple name that nothing declares means what the dotted name of one segment means exactly if
it is capitalised or `var`. -/
theorem typeElement_eq_dottedElement_iff {file : SourceFile}
    (unknown : file.lookupType? segment.text path = none) (listed : segment ∈ path.segments) :
    file.typeElement segment = file.dottedElement [segment.text] path ↔
      isCapitalised segment.text = true ∨ segment.text = "var" := by
  have simple := typeElement_of_unknown
    ((lookupType?_of_mem_segments file segment.text listed).trans unknown)
  rw [simple, dottedElement_of_unknown unknown, List.foldl_nil, completeName,
    List.getLast?_singleton, Option.any_some]
  by_cases isVar : segment.text = "var"
  · have lower : isCapitalised "var" = false := by decide
    simp [isVar, lower]
  · cases upper : isCapitalised segment.text <;> simp [isVar]

/-- The carets on a dotted name of a type whose first segment nothing declares. Each segment but the
first shows what the name up to it means, and the first does if it is capitalised or `var`;
otherwise it shows a type of the package of the file, although the name up to it means none, as no
name of segments that are not capitalised does. In the annotations of a package all segments show
nothing. -/
theorem dotted_type (wf : WellFormed root) (held : root.Holds path)
    (isPath : path.isAny typePaths = true)
    (whole : path.parent?.any (·.isAny dottedNames) = false)
    (unknown : ∀ first ∈ path.segments.head?,
      (ofRoot root).lookupType? first.text path = none)
    {before after : List Place} (split : path.segments = before ++ segment :: after) :
    ((∃ around ∈ segment.ancestors, around.is .packageDeclaration = true) →
      (ofRoot root).Shows segment .other) ∧
    ((∀ around ∈ segment.ancestors, around.is .packageDeclaration = false) →
      ((ofRoot root).Shows segment
          ((ofRoot root).dottedElement ((before ++ [segment]).map Place.text) path) ↔
        before ≠ [] ∨ isCapitalised segment.text = true ∨ segment.text = "var") ∧
      (before = [] → segment.text ≠ "var" →
        (ofRoot root).Shows segment (.type ((ofRoot root).header.qualify segment.text)))) ∧
    ((∀ one ∈ before ++ [segment], isCapitalised one.text = false) →
      (ofRoot root).dottedElement ((before ++ [segment]).map Place.text) path = .other) := by
  have listed : segment ∈ path.segments := by simp [split]
  have heldSegment := Place.held_of_mem_segments held listed
  have isName := (Place.chain_of_mem_segments listed).1
  have isType := Place.is_typeIdentifier_of_mem_segments wf held
    (Place.isAny_mono isPath (by decide)) listed
  have means := nameElement_of_split wf held isPath whole split
  obtain ⟨inHeader, outside⟩ := headerElement?_of_type wf heldSegment isType
  have unknownFirst (first : before = []) :
      (ofRoot root).lookupType? segment.text path = none :=
    unknown segment (by simp [split, first])
  refine ⟨fun package => ?_, fun noPackage => ⟨?_, fun first noVar => ?_⟩, fun lower => ?_⟩
  · rw [shows_name_iff wf heldSegment isName, means, inHeader package]
    rfl
  · rw [shows_name_iff wf heldSegment isName, means, outside noPackage, Option.getD_none]
    by_cases first : before = []
    · rw [if_pos first]
      simpa [first] using typeElement_eq_dottedElement_iff (unknownFirst first) listed
    · simp [first]
  · have simple := typeElement_of_unknown
      ((lookupType?_of_mem_segments _ segment.text listed).trans (unknownFirst first))
    rw [shows_name_iff wf heldSegment isName, means, outside noPackage, Option.getD_none,
      if_pos first, simple, if_neg noVar]
  · refine dottedElement_eq_other (fun name found => ?_) (List.forall_mem_map.mpr lower)
    rw [List.head?_map] at found
    obtain ⟨first, front, rfl⟩ := Option.map_eq_some_iff.mp found
    refine unknown first ?_
    rw [split]
    cases before <;> exact front

/-- A field whose type is a dotted name. -/
def dottedField : String := "package p; class A { java.util.Map m; }"

/-- The type of the field is a dotted name of three segments, and nothing declares the first. -/
theorem dottedField_written :
    accepts dottedField = true ∧ ∃ path package middle last : Place,
      (parse dottedField).Holds path ∧
      path.isAny typePaths = true ∧ path.parent?.any (·.isAny dottedNames) = false ∧
      (ofRoot (parse dottedField)).lookupType? package.text path = none ∧
      path.segments = [package, middle, last] ∧ package.text = "java" ∧
      middle.text = "util" ∧ last.text = "Map" ∧
      (∀ segment ∈ [package, middle, last], ∀ around ∈ segment.ancestors,
        around.is .packageDeclaration = false) ∧
      (ofRoot (parse dottedField)).header.qualify "java" = "p.java" := by
  have written : (accepts dottedField && ((parse dottedField).places []).any fun path =>
      path.isAny typePaths && !path.parent?.any (·.isAny dottedNames) &&
        ((ofRoot (parse dottedField)).lookupType? "java" path).isNone &&
        path.segments.map Place.text == ["java", "util", "Map"] &&
        path.segments.all (fun segment => segment.ancestors.all (!·.is .packageDeclaration)) &&
        (ofRoot (parse dottedField)).header.qualify "java" == "p.java") = true := by
    decide +kernel
  obtain ⟨accepted, path, held, written⟩ := exists_held_of_search written
  simp only [Bool.and_eq_true, Bool.not_eq_true', Option.isNone_iff_eq_none, beq_iff_eq,
    List.all_eq_true] at written
  obtain ⟨⟨⟨⟨⟨isPath, whole⟩, unknown⟩, texts⟩, outside⟩, qualified⟩ := written
  obtain ⟨package, rest, segments, java, others⟩ := List.map_eq_cons_iff.mp texts
  obtain ⟨middle, rest, rfl, util, others⟩ := List.map_eq_cons_iff.mp others
  obtain ⟨last, rest, rfl, map, others⟩ := List.map_eq_cons_iff.mp others
  obtain rfl := List.map_eq_nil_iff.mp others
  exact ⟨accepted, path, package, middle, last, held, isPath, whole, java ▸ unknown, segments,
    java, util, map, segments ▸ outside, qualified⟩

/-- The last segment of the name shows the type in the other package, the segment before it shows
nothing, and the first one shows a type of the package of the file. -/
theorem dotted_type_field :
    ∃ path package middle last : Place, (parse dottedField).Holds path ∧
      path.segments = [package, middle, last] ∧
      (ofRoot (parse dottedField)).Shows package (.type "p.java") ∧
      (ofRoot (parse dottedField)).Shows middle .other ∧
      (ofRoot (parse dottedField)).Shows last
        ((ofRoot (parse dottedField)).dottedElement ["java", "util", "Map"] path) := by
  obtain ⟨accepted, path, package, middle, last, held, isPath, whole, unknown, segments, java, util,
    map, outside, qualified⟩ := dottedField_written
  have wf := wellFormed_parse accepted
  have unknown : ∀ first ∈ path.segments.head?,
      (ofRoot (parse dottedField)).lookupType? first.text path = none := by
    simpa [segments] using unknown
  have packages : isCapitalised "java" = false ∧ isCapitalised "util" = false := by decide
  obtain ⟨_, first, _⟩ := dotted_type wf held isPath whole unknown
    (show path.segments = [] ++ package :: [middle, last] from segments)
  obtain ⟨_, second, lower⟩ := dotted_type wf held isPath whole unknown
    (show path.segments = [package] ++ middle :: [last] from segments)
  obtain ⟨_, third, _⟩ := dotted_type wf held isPath whole unknown
    (show path.segments = [package, middle] ++ last :: [] from segments)
  refine ⟨path, package, middle, last, held, segments, ?_, ?_, ?_⟩
  · have shown := (first (outside package (by simp))).2 rfl (by rw [java]; decide)
    rwa [java, qualified] at shown
  · have shown := (second (outside middle (by simp))).1.mpr (.inl (by simp))
    rwa [lower (by simpa [java, util] using packages)] at shown
  · have shown := (third (outside last (by simp))).1.mpr (.inl (by simp))
    simpa [java, util, map] using shown

/-- The first segment of the name shows a type of the package of the file, although as a dotted name
of one segment it means nothing. -/
theorem package_segment_shows_type :
    accepts dottedField = true ∧ ∃ path package middle last : Place,
      (parse dottedField).Holds path ∧ path.isAny typePaths = true ∧
        path.parent?.any (·.isAny dottedNames) = false ∧
        path.segments = [package, middle, last] ∧
        (ofRoot (parse dottedField)).lookupType? package.text path = none ∧
        (ofRoot (parse dottedField)).dottedElement [package.text] path = .other ∧
        (ofRoot (parse dottedField)).Shows package (.type "p.java") ∧
        ¬ (ofRoot (parse dottedField)).Shows package .other := by
  obtain ⟨accepted, path, package, middle, last, held, isPath, whole, unknown, segments, java, _, _,
    outside, qualified⟩ := dottedField_written
  have wf := wellFormed_parse accepted
  have listed : package ∈ path.segments := by simp [segments]
  have heldPackage := Place.held_of_mem_segments held listed
  have isName := (Place.chain_of_mem_segments listed).1
  have isType := Place.is_typeIdentifier_of_mem_segments wf held
    (Place.isAny_mono isPath (by decide)) listed
  have outside := (headerElement?_of_type wf heldPackage isType).2 (outside package (by simp))
  have means : (ofRoot (parse dottedField)).nameElement package = .type "p.java" := by
    rw [nameElement_of_split wf held isPath whole
        (show path.segments = [] ++ package :: [middle, last] from segments),
      outside, Option.getD_none, if_pos rfl, typeElement_of_unknown
        ((lookupType?_of_mem_segments _ package.text listed).trans unknown), java, qualified]
    rfl
  have noType : isCapitalised "java" = false := by decide
  refine ⟨accepted, path, package, middle, last, held, isPath, whole, segments, unknown, ?_,
    (shows_name_iff wf heldPackage isName).mpr means, fun shown => ?_⟩
  · exact dottedElement_eq_other (by simpa using unknown) (by simpa [java] using noType)
  · rw [shows_name_iff wf heldPackage isName, means] at shown
    cases shown

end SourceFile

end CaretName
