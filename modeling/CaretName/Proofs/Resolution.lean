import CaretName.Proofs.Caret
import CaretName.SourceFile.Analysis

/-!
# Names for carets

The name for a caret comes from the element under it, and otherwise from the primary type of the
file. `SourceFile.Answers` tells the name for every request by rules that do not overlap, and
`SourceFile.resolve_eq_ok` says that every request for a byte of the file, or for none, is
answered by them. The only failure is a request for a byte past the end, and a caret of the source
is never one.
-/
namespace CaretName

/-! ## Names of elements -/

/-- Parameter types with a comma and a space between each two. -/
inductive TypeRef.Listed : List TypeRef → String → Prop
  /-- No parameters. -/
  | none : Listed [] ""
  /-- The last parameter. -/
  | last {type : TypeRef} : Listed [type] type.display
  /-- A parameter before others. -/
  | more {type next : TypeRef} {rest : List TypeRef} {text : String}
    (others : Listed (next :: rest) text) :
    Listed (type :: next :: rest) (type.display ++ ", " ++ text)

/-- The name that an element is written by. -/
inductive Element.Named : Element → String → Prop
  /-- A type goes by its qualified name. -/
  | ofType {qualifiedName : String} : Named (.type qualifiedName) qualifiedName
  /-- A variable goes by its type and its name. -/
  | ofVariable {declaredType simpleName : String} :
    Named (.variable declaredType simpleName) (declaredType ++ "." ++ simpleName)
  /-- A method goes by its type, its name and its parameters. -/
  | ofMethod {enclosingType simpleName listed : String} {parameters : List TypeRef}
    (each : TypeRef.Listed parameters listed) :
    Named (.method enclosingType simpleName parameters)
      (enclosingType ++ "#" ++ simpleName ++ "(" ++ listed ++ ")")
  /-- A constructor goes by its type and its parameters. -/
  | ofConstructor {enclosingType listed : String} {parameters : List TypeRef}
    (each : TypeRef.Listed parameters listed) :
    Named (.constructor enclosingType parameters) (enclosingType ++ "(" ++ listed ++ ")")

/-- Parameters are listed by one text. -/
theorem TypeRef.listed_iff {types : List TypeRef} {text : String} :
    TypeRef.Listed types text ↔ ", ".intercalate (types.map display) = text := by
  constructor
  · intro listed
    induction listed with
    | none => rfl
    | last => exact String.intercalate_singleton
    | more others ih =>
      rw [List.map_cons, List.map_cons, String.intercalate_cons_cons, ← List.map_cons, ih]
  · rintro rfl
    induction types with
    | nil => exact .none
    | cons type rest ih =>
      cases rest with
      | nil =>
        rw [List.map_singleton, String.intercalate_singleton]
        exact .last
      | cons next rest =>
        rw [List.map_cons, List.map_cons, String.intercalate_cons_cons, ← List.map_cons]
        exact .more ih

namespace Element

variable {element : Element} {name : String}

/-- An element has the name that it is written by, and no other. -/
theorem named_iff : element.Named name ↔ element.qualifiedName? = some name := by
  constructor
  · intro named
    cases named with
    | ofType | ofVariable => rfl
    | ofMethod each | ofConstructor each =>
      rw [← TypeRef.listed_iff.mp each, qualifiedName?, TypeRef.displayAll]
      simp only [String.append_assoc]
  · intro found
    match element, found with
    | .type _, rfl => exact .ofType
    | .variable _ _, rfl => exact .ofVariable
    | .method enclosingType simpleName parameters, rfl =>
      have named : (method enclosingType simpleName parameters).Named _ :=
        .ofMethod (TypeRef.listed_iff.mpr rfl)
      simpa only [TypeRef.displayAll, String.append_assoc] using named
    | .constructor enclosingType parameters, rfl =>
      have named : (constructor enclosingType parameters).Named _ :=
        .ofConstructor (TypeRef.listed_iff.mpr rfl)
      simpa only [TypeRef.displayAll, String.append_assoc] using named

/-- Every element but the one without a qualified form has a name. -/
theorem exists_named_iff : (∃ name, element.Named name) ↔ element ≠ .other := by
  simp only [named_iff]
  cases element <;> simp [qualifiedName?]

end Element

/-! ## The primary type -/

/-- The name of the primary type among declarations. -/
inductive Primary : List Declaration → String → Prop
  /-- The first public type, wherever it is declared. -/
  | firstPublic {before after : List Declaration} {declaration : Declaration}
    (isPublic : declaration.isPublic = true) (others : ∀ other ∈ before, other.isPublic = false) :
    Primary (before ++ declaration :: after) declaration.qualifiedName
  /-- The first type, where none is public. -/
  | first {declaration : Declaration} {after : List Declaration}
    (others : ∀ other ∈ declaration :: after, other.isPublic = false) :
    Primary (declaration :: after) declaration.qualifiedName

variable {declarations : List Declaration} {name : String}

/-- The primary type is the one that is looked for. -/
theorem primary_iff : Primary declarations name ↔ primaryType? declarations = some name := by
  constructor
  · intro primary
    cases primary with
    | firstPublic isPublic others =>
      rw [primaryType?, List.find?_append, List.find?_cons_of_pos isPublic,
        List.find?_eq_none.mpr fun other before => Bool.eq_false_iff.mp (others other before)]
      rfl
    | first others =>
      have none := List.find?_eq_none.mpr fun other inside =>
        Bool.eq_false_iff.mp (others other inside)
      rw [primaryType?, none]
      rfl
  · intro found
    rw [primaryType?, Option.map_eq_some_iff] at found
    obtain ⟨declaration, found, rfl⟩ := found
    cases search : declarations.find? (·.isPublic) with
    | some first =>
      obtain ⟨isPublic, before, after, rfl, others⟩ := List.find?_eq_some_iff_append.mp search
      rw [search] at found
      obtain rfl : first = declaration := Option.some.inj found
      exact .firstPublic isPublic fun other inside => by simpa using others other inside
    | none =>
      rw [search] at found
      obtain ⟨after, rfl⟩ := List.head?_eq_some_iff.mp found
      exact .first fun other inside => by simpa using List.find?_eq_none.mp search other inside

/-- Only where nothing is declared there is no primary type. -/
theorem primaryType?_eq_none : primaryType? declarations = none ↔ declarations = [] := by
  rw [primaryType?, Option.map_eq_none_iff]
  cases declarations with
  | nil => simp
  | cons declaration after => simp

/-! ## Requests for names -/

namespace SourceFile

variable {file : SourceFile} {path : String} {offset : Option Nat} {byte : Nat}
  {element : Element} {answer : Option Resolution}

/-- No byte is asked for, or one without an element that has a qualified form. -/
def Unnamed (file : SourceFile) (offset : Option Nat) : Prop :=
  ∀ byte ∈ offset, ∀ element ∈ file.elementAt? byte, element = .other

/-- The name for a byte of a file, or for the file. -/
inductive Answers (file : SourceFile) : Option Nat → Option Resolution → Prop
  /-- The element at the byte gives the name, whatever the file declares. -/
  | element {byte : Nat} {element : Element} {name : String}
    (found : file.elementAt? byte = some element) (named : element.Named name) :
    Answers file (some byte) (some ⟨name, .element element.kind⟩)
  /-- Without one the primary type of the file gives it. -/
  | file {offset : Option Nat} {name : String} (unnamed : file.Unnamed offset)
    (primary : Primary file.declarations name) : Answers file offset (some ⟨name, .file⟩)
  /-- A file without types gives no other name. -/
  | nothing {offset : Option Nat} (unnamed : file.Unnamed offset)
    (bare : ∀ part ∈ file.place.parts, part.isTypeDeclaration = false) : Answers file offset none

/-- A file declares nothing if none of its parts declares a type. -/
theorem declarations_eq_nil :
    file.declarations = [] ↔ ∀ part ∈ file.place.parts, part.isTypeDeclaration = false := by
  simp [declarations]

/-- No element has a qualified form exactly when no name is taken from one. -/
theorem unnamed_iff : file.Unnamed offset ↔
    (offset.bind file.elementAt?).bind Resolution.ofElement? = none := by
  have unnamed (element : Element) : Resolution.ofElement? element = none ↔ element = .other := by
    cases element <;> simp [Resolution.ofElement?, Element.qualifiedName?]
  simp only [Unnamed, Option.bind_eq_none_iff, unnamed, Option.mem_def, Option.bind_eq_some_iff]
  constructor
  · rintro each element ⟨byte, rfl, found⟩
    exact each byte rfl element found
  · rintro each byte rfl element found
    exact each element ⟨byte, rfl, found⟩

/-- The rules give the name that is looked for, and no other. -/
theorem answers_iff : file.Answers offset answer ↔
    Resolution.resolve (offset.bind file.elementAt?) file.declarations = answer := by
  constructor
  · intro answers
    cases answers with
    | element found named =>
      rw [Option.bind_some, found, Resolution.resolve, Option.bind_some, Resolution.ofElement?,
        Element.named_iff.mp named]
      rfl
    | file unnamed primary =>
      rw [Resolution.resolve, unnamed_iff.mp unnamed, Resolution.ofFile?,
        primary_iff.mp primary]
      rfl
    | nothing unnamed bare =>
      rw [Resolution.resolve, unnamed_iff.mp unnamed, Resolution.ofFile?,
        declarations_eq_nil.mpr bare]
      rfl
  · rintro rfl
    rw [Resolution.resolve]
    cases own : (offset.bind file.elementAt?).bind Resolution.ofElement? with
    | some resolution =>
      obtain ⟨element, under, named⟩ := Option.bind_eq_some_iff.mp own
      obtain ⟨byte, rfl, found⟩ := Option.bind_eq_some_iff.mp under
      obtain ⟨name, written, rfl⟩ := Option.map_eq_some_iff.mp named
      exact .element found (Element.named_iff.mpr written)
    | none =>
      have unnamed := unnamed_iff.mpr own
      cases primary : primaryType? file.declarations with
      | some name =>
        rw [Resolution.ofFile?, primary]
        exact .file unnamed (primary_iff.mpr primary)
      | none =>
        rw [Resolution.ofFile?, primary]
        exact .nothing unnamed (declarations_eq_nil.mp (primaryType?_eq_none.mp primary))

/-- Only a byte past the end of the file is refused. -/
theorem resolve_eq_error {failure : Failure} : file.resolve path offset = .error failure ↔
    ∃ byte, offset = some byte ∧ file.root.stop < byte ∧ failure = file.pastEnd path byte := by
  cases offset with
  | none => simp [resolve]
  | some byte =>
    by_cases past : file.root.stop < byte
    · simp [resolve, locate, past, Except.map, eq_comm]
    · simp [resolve, locate, past, Except.map]

/-- A request that is not refused is answered by the rules. -/
theorem resolve_eq_ok : file.resolve path offset = .ok answer ↔
    (∀ byte ∈ offset, byte ≤ file.root.stop) ∧ file.Answers offset answer := by
  rw [answers_iff]
  cases offset with
  | none => simp [resolve]
  | some byte =>
    by_cases past : file.root.stop < byte
    · simp [resolve, locate, past, Except.map, Nat.not_le.mpr past]
    · simp [resolve, locate, past, Except.map, Nat.le_of_not_lt past]

/-- A caret stands at most at the end of the source. -/
theorem byte_le_of_byte_eq_ok {source : String} {caret : Caret}
    (accepted : caret.byte source.toList = .ok byte) : byte ≤ source.utf8ByteSize := by
  have within {before after : List Char} (whole : before ++ after = source.toList) :
      byteCount before ≤ source.utf8ByteSize := by
    rw [← String.ofList_toList (s := source), utf8ByteSize_ofList, ← whole, byteCount_append]
    exact Nat.le_add_right _ _
  cases caret with
  | offset count =>
    obtain ⟨before, after, whole, -, rfl⟩ := Caret.byte_offset_eq_ok.mp accepted
    exact within whole
  | lineColumn line column =>
    obtain ⟨before, after, whole, -, -, -, rfl⟩ := Caret.byte_lineColumn_eq_ok.mp accepted
    exact within whole

/-- A request for the name of a byte is refused exactly when the byte lies past the end of the
source, so a caret of the source is not. Otherwise an element with a qualified form gives its
name, whatever the file declares, and without one the primary type of the file gives it. No name
comes out exactly when there is no such element and the file declares no type. -/
theorem resolve_request (source path : String) (offset : Option Nat) :
    (∀ failure, (ofSource source).resolve path offset = .error failure ↔
      ∃ byte, offset = some byte ∧ source.utf8ByteSize < byte ∧
        failure = .invalidInput ("Offset " ++ toString byte ++ " is past the end of " ++ path ++
          " (" ++ toString source.utf8ByteSize ++ " bytes)")) ∧
    (∀ (caret : Caret) byte, caret.byte source.toList = .ok byte →
      ∃ answer, (ofSource source).resolve path (some byte) = .ok answer) ∧
    (∀ byte element, offset = some byte → byte ≤ source.utf8ByteSize →
      (ofSource source).elementAt? byte = some element → element ≠ .other →
      ∃ name, element.Named name ∧
        (ofSource source).resolve path offset = .ok (some ⟨name, .element element.kind⟩)) ∧
    (∀ answer, (ofSource source).resolve path offset = .ok answer ↔
      (∀ byte ∈ offset, byte ≤ source.utf8ByteSize) ∧
        (ofSource source).Answers offset answer) ∧
    ((ofSource source).resolve path offset = .ok none ↔
      (∀ byte ∈ offset, byte ≤ source.utf8ByteSize) ∧ (ofSource source).Unnamed offset ∧
        ∀ part ∈ (ofSource source).place.parts, part.isTypeDeclaration = false) := by
  refine ⟨fun failure => resolve_eq_error, fun caret byte accepted => ?_,
    fun byte element asked inside found meant => ?_, fun answer => resolve_eq_ok, ?_⟩
  · have inside := byte_le_of_byte_eq_ok accepted
    refine ⟨_, resolve_eq_ok.mpr ⟨fun other same => ?_, answers_iff.mpr rfl⟩⟩
    obtain rfl : byte = other := Option.some.inj same
    exact inside
  · obtain ⟨name, named⟩ := Element.exists_named_iff.mpr meant
    subst asked
    refine ⟨name, named, resolve_eq_ok.mpr ⟨fun other same => ?_, .element found named⟩⟩
    obtain rfl : byte = other := Option.some.inj same
    exact inside
  · rw [resolve_eq_ok]
    refine and_congr_right fun _ => ⟨fun answers => ?_, fun ⟨unnamed, bare⟩ => ?_⟩
    · cases answers with
      | nothing unnamed bare => exact ⟨unnamed, bare⟩
    · exact .nothing unnamed bare

/-- Two classes, the second one public. -/
def secondPublic : String := "class A { } public class B { }"

/-- A caret on the first class gives it. Between the classes, and without a caret, the public one
stands in, and past the end there is no answer. -/
theorem resolve_secondPublic :
    (ofSource secondPublic).resolve "A.java" (some 6) = .ok (some ⟨"A", .element .type⟩) ∧
      (ofSource secondPublic).resolve "A.java" (some 11) = .ok (some ⟨"B", .file⟩) ∧
      (ofSource secondPublic).resolve "A.java" none = .ok (some ⟨"B", .file⟩) ∧
      (ofSource secondPublic).resolve "A.java" (some 31) =
        .error (.invalidInput "Offset 31 is past the end of A.java (30 bytes)") ∧
      ∃ answer, (ofSource secondPublic).resolve "A.java" (some 30) = .ok answer := by
  have onFirst : (ofSource secondPublic).elementAt? 6 = some (.type "A") := by decide +kernel
  have between : (ofSource secondPublic).elementAt? 11 = none := by decide +kernel
  have listed : (ofSource secondPublic).declarations = [⟨"A", false⟩] ++ ⟨"B", true⟩ :: [] := by
    decide +kernel
  have primary : Primary (ofSource secondPublic).declarations "B" := by
    rw [listed]
    exact .firstPublic rfl (by simp)
  have size : secondPublic.utf8ByteSize = 30 := by decide +kernel
  obtain ⟨-, -, element, -, -⟩ := resolve_request secondPublic "A.java" (some 6)
  obtain ⟨name, named, first⟩ := element 6 _ rfl (by omega) onFirst (by decide)
  cases named
  refine ⟨first, ?_, ?_, ?_, ?_⟩
  · refine ((resolve_request secondPublic "A.java" (some 11)).2.2.2.1 _).mpr ⟨?_, .file ?_ primary⟩
    · rintro byte ⟨⟩
      omega
    · rintro byte ⟨⟩ element found
      rw [between] at found
      cases found
  · exact ((resolve_request secondPublic "A.java" none).2.2.2.1 _).mpr ⟨nofun, .file nofun primary⟩
  · refine ((resolve_request secondPublic "A.java" (some 31)).1 _).mpr ⟨31, rfl, by omega, ?_⟩
    rw [size]
    decide +kernel
  · exact (resolve_request secondPublic "A.java" none).2.1 (.offset 30) 30 (by decide +kernel)

end SourceFile

end CaretName
