import CaretName.Proofs.SourceFile.Labels

/-!
# The order of declared types

The declarations of types in a file are listed by a loop with a stack, and look-ups by name take
the first in the list that fits. `allTypes_inPreorder` says that the list is the preorder of what is
reached in the tree, whatever the tree is, and so which of several declarations of one name is
taken: the earliest in that order.
-/
namespace CaretName

namespace Place

variable {place part inner : Place} {list : List Place}

/-- What is earliest depends on nothing but the places for which something holds. -/
theorem isEarliest_congr {holds holds' : Place → Prop}
    (same : ∀ other, holds other ↔ holds' other) :
    IsEarliest holds place ↔ IsEarliest holds' place := by
  obtain rfl : holds = holds' := funext fun other => propext (same other)
  exact Iff.rfl

/-- A list in order gives the earliest place that has a property first. -/
theorem find?_eq_some_iff_isEarliest {holds : Place → Bool} (ordered : list.Pairwise Before) :
    list.find? holds = some place ↔
      IsEarliest (fun other => other ∈ list ∧ holds other = true) place := by
  rw [List.find?_eq_findSome?_guard, findSome?_eq_some_iff_isEarliest ordered]
  simp only [Option.isSome_guard, Option.guard_eq_some_iff]
  constructor
  · rintro ⟨_, earliest, rfl, _⟩
    exact earliest
  · exact fun earliest => ⟨place, earliest, rfl, earliest.1.2⟩

/-- What stands for a part among members lies in it. -/
theorem mem_outward_of_mem_member
    (chosen : inner ∈ if part.is .enumBodyDeclarations then part.parts else [part]) :
    part ∈ inner.outward := by
  split at chosen
  · exact mem_outward_of_mem_children (mem_children_of_mem_parts chosen)
  · rw [List.mem_singleton.mp chosen]
    exact mem_outward.mpr (.inl rfl)

/-- The members of a type scope stand in preorder. -/
theorem pairwise_scopeMembers_before (scope : Place) : scope.scopeMembers.Pairwise Before := by
  have parts (place : Place) : place.parts.Pairwise WhollyBefore :=
    (pairwise_children_whollyBefore place).filter _
  unfold scopeMembers
  cases scope.typeBody? with
  | none => exact .nil
  | some body =>
    rw [Option.map_some, Option.getD_some, members, List.pairwise_flatMap]
    constructor
    · intro part listed
      split
      · exact (parts part).imp WhollyBefore.before
      · exact List.pairwise_singleton _ _
    · refine (parts body).imp fun wholly _ among _ among' => ?_
      exact wholly (mem_outward_of_mem_member among) (mem_outward_of_mem_member among')

end Place

namespace SourceFile

variable {enum constant : Place} {text : String}

/-- An enum gives a constant for a name exactly if it declares one. -/
theorem isSome_constantNamed?_iff (isEnum : enum.is .enumDeclaration = true) :
    constant ∈ enum.scopeMembers ∧ (Place.constantNamed? text constant).isSome = true ↔
      ∃ own, enum.DeclaresConstant text constant own := by
  constructor
  · rintro ⟨inside, named⟩
    obtain ⟨own, named⟩ := Option.isSome_iff_exists.mp named
    exact ⟨own, (Place.constantNamed?_eq_some isEnum inside).mp named⟩
  · rintro ⟨own, declares⟩
    have inside := declares.mem_scopeMembers
    exact ⟨inside, Option.isSome_iff_exists.mpr
      ⟨own, (Place.constantNamed?_eq_some isEnum inside).mpr declares⟩⟩

/-- The loop over a stack lists the declarations of types that are reached, in preorder. -/
theorem listsInPreorder_allTypes (file : SourceFile) :
    Place.ListsInPreorder file.root (fun place => place.isTypeDeclaration = true) file.allTypes :=
  Place.search_inPreorder file.root Place.isTypeDeclaration

/-- The enums among the listed types that give a constant for a name are those that are reached and
declare one. -/
theorem mem_enums_iff (file : SourceFile) (text : String) (enum : Place) :
    (enum ∈ file.allTypes.filter (·.is .enumDeclaration) ∧
        (enum.scopeMembers.findSome? (Place.constantNamed? text)).isSome = true) ↔
      file.root.Reaches enum ∧ ∃ constant own, enum.DeclaresConstant text constant own := by
  rw [List.mem_filter, List.findSome?_isSome_iff, (listsInPreorder_allTypes file).mem_iff]
  constructor
  · rintro ⟨⟨⟨reached, _⟩, isEnum⟩, constant, inside, named⟩
    exact ⟨reached, constant, (isSome_constantNamed?_iff isEnum).mp ⟨inside, named⟩⟩
  · rintro ⟨reached, constant, own, declares⟩
    have isType : enum.isTypeDeclaration = true := Place.isAny_of_is declares.isEnum (by decide)
    exact ⟨⟨⟨reached, isType⟩, declares.isEnum⟩, constant,
      (isSome_constantNamed?_iff declares.isEnum).mpr ⟨own, declares⟩⟩

/-- The type that a qualified name finds is the earliest declaration of that name. -/
theorem typeNamed?_iff_isEarliest (file : SourceFile) (name : String) (type : Place) :
    file.typeNamed? name = some type ↔
      Place.IsEarliest (fun other => file.root.Reaches other ∧ other.isTypeDeclaration = true ∧
        file.qualifiedName other = name) type := by
  have listed := listsInPreorder_allTypes file
  rw [typeNamed?, Place.find?_eq_some_iff_isEarliest listed.ordered]
  refine Place.isEarliest_congr fun other => ?_
  rw [listed.mem_iff, and_assoc, beq_iff_eq]

/-- The constant that a name finds is the first of the earliest enum that declares one. -/
theorem enumConstant?_iff_isEarliest (file : SourceFile) (text : String) (own : Place) :
    file.enumConstant? text = some own ↔ ∃ enum constant,
      Place.IsEarliest (fun other => file.root.Reaches other ∧
        ∃ constant own, other.DeclaresConstant text constant own) enum ∧
      Place.IsEarliest (fun other => ∃ own, enum.DeclaresConstant text other own) constant ∧
      enum.DeclaresConstant text constant own := by
  have search : file.enumConstant? text =
      (file.allTypes.filter (·.is .enumDeclaration)).findSome? fun enum =>
        enum.scopeMembers.findSome? (Place.constantNamed? text) := findSome?_flatMap _ _ _
  have ordered : (file.allTypes.filter (·.is .enumDeclaration)).Pairwise Place.Before :=
    (listsInPreorder_allTypes file).ordered.filter _
  rw [search, Place.findSome?_eq_some_iff_isEarliest ordered]
  simp only [Place.isEarliest_congr (mem_enums_iff file text)]
  refine exists_congr fun enum => ?_
  constructor
  · rintro ⟨earliest, found⟩
    obtain ⟨_, _, _, declares⟩ := earliest.1
    obtain ⟨constant, first, named⟩ :=
      (Place.findSome?_eq_some_iff_isEarliest (Place.pairwise_scopeMembers_before enum)).mp found
    exact ⟨constant, earliest,
      (Place.isEarliest_congr fun _ => isSome_constantNamed?_iff declares.isEnum).mp first,
      (Place.constantNamed?_eq_some declares.isEnum first.1.1).mp named⟩
  · rintro ⟨constant, earliest, first, declares⟩
    refine ⟨earliest,
      (Place.findSome?_eq_some_iff_isEarliest (Place.pairwise_scopeMembers_before enum)).mpr
        ⟨constant, ?_, ?_⟩⟩
    · exact (Place.isEarliest_congr fun _ => isSome_constantNamed?_iff declares.isEnum).mpr first
    · exact (Place.constantNamed?_eq_some declares.isEnum declares.mem_scopeMembers).mpr declares

/-- The loop over a stack lists exactly the declarations of types that are reached from the root
through parts, each once and in preorder, as the recursive traversal does. Of several types of a
qualified name the earliest is found, and of several constants of a name the first one of the
earliest enum that declares any. -/
theorem allTypes_inPreorder (file : SourceFile) :
    Place.ListsInPreorder file.root (fun place => place.isTypeDeclaration = true) file.allTypes ∧
      file.allTypes = (file.root.places []).filter Place.isTypeDeclaration ∧
      (∀ name type, file.typeNamed? name = some type ↔
        Place.IsEarliest (fun other => file.root.Reaches other ∧ other.isTypeDeclaration = true ∧
          file.qualifiedName other = name) type) ∧
      (∀ text own, file.enumConstant? text = some own ↔ ∃ enum constant,
        Place.IsEarliest (fun other => file.root.Reaches other ∧
          ∃ constant own, other.DeclaresConstant text constant own) enum ∧
        Place.IsEarliest (fun other => ∃ own, enum.DeclaresConstant text other own) constant ∧
        enum.DeclaresConstant text constant own) := by
  exact ⟨listsInPreorder_allTypes file, allTypes_eq file, typeNamed?_iff_isEarliest file,
    enumConstant?_iff_isEarliest file⟩

end SourceFile

end CaretName
