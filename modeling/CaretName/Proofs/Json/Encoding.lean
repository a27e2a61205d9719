import CaretName.Json.Encoding
import CaretName.Proofs.Json.Reading
import Mathlib.Data.List.Nodup

/-!
# Values that are got back from their encodings

Elements, parameter types, declared types and carets are decoded from their encodings as they were
encoded, whether the encoding is handed over as a JSON value or as a text. The decoders accept
further forms, and whatever they decode from one is got back from its own encoding.
-/
namespace CaretName

namespace Json

variable {α : Type}

/-- An encoding that loses nothing of the values that are legal. -/
structure Lossless (encode : α → Json) (decode? : Json → Option α) (Legal : α → Prop) :
    Prop where
  /-- A value is decoded from its encoding. -/
  encoded : ∀ value, Legal value → decode? (encode value) = some value
  /-- It is decoded from the text of its encoding without white space. -/
  compact : ∀ value, Legal value → (read? (encode value).compact).bind decode? = some value
  /-- It is decoded from the text of its encoding over several lines. -/
  pretty : ∀ value, Legal value → (read? (encode value).pretty).bind decode? = some value
  /-- What is decoded from JSON of any form is decoded from its own encoding again. -/
  again : ∀ json value, decode? json = some value → decode? (encode value) = some value

/-- The forms of JSON that a value with some members is decoded from. -/
structure AcceptsForms (decode? : Json → Option α) (value : α) (members : List (String × Json)) :
    Prop where
  /-- An object is accepted that has the members, in any order and among further ones. -/
  object : ∀ others,
    (∀ name ∈ members.map (·.1),
      (Json.object others).member? name = (Json.object members).member? name) →
    decode? (.object others) = some value
  /-- The array of what the members are is accepted. -/
  array : decode? (.array (members.map (·.2))) = some value

/-- An encoding loses nothing if legal values are decoded from it, are within the limits of the
reader and are the only ones that are decoded. -/
theorem Lossless.of_encoded {encode : α → Json} {decode? : Json → Option α} {Legal : α → Prop}
    (encoded : ∀ value, Legal value → decode? (encode value) = some value)
    (fits : ∀ value, Legal value → Fits maxDepth (encode value))
    (legal : ∀ json value, decode? json = some value → Legal value) :
    Lossless encode decode? Legal where
  encoded := encoded
  compact value given := by
    rw [read?_compact (fits value given)]
    exact encoded value given
  pretty value given := by
    rw [read?_pretty (fits value given)]
    exact encoded value given
  again json value decoded := encoded value (legal json value decoded)

/-! ## Members -/

/-- A member of an object that has each name once is found by its name. -/
theorem member?_eq_some {fields : List (String × Json)} (once : (fields.map (·.1)).Nodup)
    {field : String × Json} (listed : field ∈ fields) :
    (object fields).member? field.1 = some field.2 := by
  have found : (fields.reverse.find? (·.1 == field.1)).isSome := by
    rw [List.find?_isSome]
    exact ⟨field, List.mem_reverse.mpr listed, beq_self_eq_true field.1⟩
  obtain ⟨other, found⟩ := Option.isSome_iff_exists.mp found
  have named : other.1 = field.1 := by simpa using List.find?_some found
  have same := List.inj_on_of_nodup_map once (List.mem_reverse.mp (List.mem_of_find?_eq_some found))
    listed named
  rw [member?, found, same, Option.map_some]

/-- A member of an object that agrees with another one on its names is found by its name. -/
theorem member?_of_agree {fields members : List (String × Json)} (once : (fields.map (·.1)).Nodup)
    (agree : ∀ name ∈ fields.map (·.1),
      (object members).member? name = (object fields).member? name)
    {field : String × Json} (listed : field ∈ fields) :
    (object members).member? field.1 = some field.2 :=
  (agree field.1 (List.mem_map_of_mem listed)).trans (member?_eq_some once listed)

/-- Values that are there one by one are there together. -/
theorem mapM_eq_some_map {β γ : Type} {items : List β} {f : β → Option γ} {g : β → γ}
    (each : ∀ item ∈ items, f item = some (g item)) : items.mapM f = some (items.map g) := by
  induction items with
  | nil => rfl
  | cons item items ih =>
    obtain ⟨first, others⟩ := List.forall_mem_cons.mp each
    rw [List.mapM_cons, first, ih others]
    rfl

/-! ## Forms -/

/-- An encoding of values as objects whose members are accepted in every form. -/
def AcceptedInForms (encode : α → Json) (decode? : Json → Option α) : Prop :=
  ∀ value, ∃ members, encode value = object members ∧ AcceptsForms decode? value members

/-- What is accepted in every form is decoded from its encoding. -/
theorem AcceptedInForms.encoded {encode : α → Json} {decode? : Json → Option α}
    (forms : AcceptedInForms encode decode?) (value : α) : decode? (encode value) = some value := by
  obtain ⟨members, same, accepts⟩ := forms value
  rw [same]
  exact accepts.object members fun _ _ => rfl

/-- An encoding that is accepted in every form and within the limits of the reader loses nothing. -/
theorem AcceptedInForms.lossless {encode : α → Json} {decode? : Json → Option α}
    (forms : AcceptedInForms encode decode?) (fits : ∀ value, Fits maxDepth (encode value)) :
    Lossless encode decode? fun _ => True :=
  .of_encoded (fun value _ => forms.encoded value) (fun value _ => fits value) fun _ _ _ => trivial

variable {decode? : Json → Option α} {value : α}

/-- A value whose kind is named beside its fields is accepted in every form if it is decoded from
the name of its kind and its fields in order. -/
theorem AcceptsForms.of_variant (variants : Variants) (byNumber : Bool) {name : String}
    {fields : List (String × Json)} (once : ∀ kind ∈ variants, ("kind" :: kind.2).Nodup)
    (listed : variants.find? (·.1 == name) = some (name, fields.map (·.1)))
    (decoded : ∀ json, json.variant? variants byNumber = some (name, fields.map (·.2)) →
      decode? json = some value) :
    AcceptsForms decode? value (("kind", string name) :: fields) where
  object others agree := by
    have once : ((("kind", string name) :: fields).map (·.1)).Nodup :=
      once _ (List.mem_of_find?_eq_some listed)
    have found : ∀ field ∈ ("kind", string name) :: fields,
        (Json.object others).member? field.1 = some field.2 :=
      fun _ => member?_of_agree once agree
    have kind : (Json.object others).member? "kind" = some (string name) :=
      found _ List.mem_cons_self
    have values : (fields.map (·.1)).mapM (fun key => (Json.object others).member? key) =
        some (fields.map (·.2)) := by
      rw [List.mapM_map]
      exact mapM_eq_some_map fun field listed => found field (List.mem_cons_of_mem _ listed)
    apply decoded
    rw [variant?, kind, Option.bind_eq_bind, Option.bind_some, tagOf?, listed,
      Option.bind_eq_bind, Option.bind_some]
    dsimp only
    rw [values]
    rfl
  array := by
    apply decoded
    rw [List.map_cons, variant?, tagOf?, listed, Option.bind_eq_bind, Option.bind_some]
    dsimp only
    rw [List.length_map, List.length_map, beq_self_eq_true, if_pos rfl]

/-- A structure is accepted in every form if it is decoded from its fields in order. -/
theorem AcceptsForms.of_fields {fields : List (String × Json)} (once : (fields.map (·.1)).Nodup)
    (decoded : ∀ json, json.fields? (fields.map (·.1)) = some (fields.map (·.2)) →
      decode? json = some value) :
    AcceptsForms decode? value fields where
  object others agree := by
    apply decoded
    rw [fields?, List.mapM_map]
    exact mapM_eq_some_map fun field => member?_of_agree once agree
  array := by
    apply decoded
    rw [fields?, List.length_map, List.length_map, beq_self_eq_true, if_pos rfl]

/-! ## Counts -/

/-- A count that is small enough is got back from its number. -/
theorem count?_integer {count : Nat} (small : count < 2 ^ 64) :
    (integer count).count? = some count :=
  if_pos (Nat.le_of_lt_succ small)

/-- Counts are small. -/
theorem lt_of_count? {json : Json} {count : Nat} (counts : json.count? = some count) :
    count < 2 ^ 64 := by
  unfold count? at counts
  split at counts
  · next value =>
    obtain ⟨most, same⟩ := Option.ite_none_right_eq_some.mp counts
    obtain rfl := Option.some.inj same
    exact Nat.lt_succ_of_le most
  · contradiction

/-- A number that is small enough is within the limits of the reader. -/
theorem held_of_lt {count : Nat} (small : count < 2 ^ 64) (negative : Bool) :
    Held negative count :=
  fun large => absurd large (Nat.not_lt.mpr (Nat.le_of_lt_succ small))

end Json

/-! ## Parameter types, elements and declared types -/

namespace TypeRef

/-- Parameter types are decoded from every form. -/
theorem acceptedInForms (byNumber : Bool) : Json.AcceptedInForms toJson (ofJson? byNumber) := by
  have once : ∀ kind ∈ variants, ("kind" :: kind.2).Nodup := by decide
  intro type
  cases type with
  | declared | primitive | array | typeVariable =>
    refine ⟨_, rfl, .of_variant variants byNumber once rfl fun json read => ?_⟩
    rw [ofJson?, read]
    rfl

/-- Several parameter types are decoded from the array of their encodings. -/
theorem listOfJson?_toJson (byNumber : Bool) (types : List TypeRef) :
    listOfJson? byNumber (.array (types.map toJson)) = some types := by
  have each : ∀ type ∈ types, (ofJson? byNumber ∘ toJson) type = some (id type) :=
    fun type _ => (acceptedInForms byNumber).encoded type
  change (types.map toJson).mapM (ofJson? byNumber) = some types
  rw [List.mapM_map, Json.mapM_eq_some_map each, List.map_id]

/-- The encoding of a parameter type is nested once. -/
theorem fits_toJson (depth : Nat) (type : TypeRef) : Json.Fits (depth + 1) type.toJson := by
  cases type <;> simp [toJson, Json.Fits, Json.FitMembers]

/-- The encodings of parameter types are nested once. -/
theorem fitAll_toJson (depth : Nat) (types : List TypeRef) :
    Json.FitAll (depth + 1) (types.map toJson) := by
  induction types with
  | nil => trivial
  | cons type types ih => exact ⟨type.fits_toJson depth, ih⟩

end TypeRef

namespace Element

/-- Elements are decoded from every form. -/
theorem acceptedInForms : Json.AcceptedInForms toJson ofJson? := by
  have once : ∀ kind ∈ variants, ("kind" :: kind.2).Nodup := by decide
  intro element
  cases element with
  | method | constructor =>
    refine ⟨_, rfl, .of_variant variants false once rfl fun json read => ?_⟩
    rw [ofJson?, read]
    simp only [List.map_cons, List.map_nil, Option.bind_eq_bind, Option.bind_some, Json.string?,
      TypeRef.listOfJson?_toJson]
  | _ =>
    refine ⟨_, rfl, .of_variant variants false once rfl fun json read => ?_⟩
    rw [ofJson?, read]
    rfl

/-- The encoding of an element is nested three times at most. -/
theorem fits_toJson (depth : Nat) (element : Element) : Json.Fits (depth + 3) element.toJson := by
  cases element <;> simp [toJson, Json.Fits, Json.FitMembers, TypeRef.fitAll_toJson]

end Element

namespace Declaration

/-- Declared types are decoded from every form. -/
theorem acceptedInForms : Json.AcceptedInForms toJson ofJson? := by
  have once : ["qualified_name", "is_public"].Nodup := by decide
  intro declaration
  refine ⟨_, rfl, .of_fields once fun json read => ?_⟩
  unfold ofJson?
  simp only [List.map_cons, List.map_nil] at read
  rw [read]
  rfl

/-- The encoding of a declared type is nested once. -/
theorem fits_toJson (depth : Nat) (declaration : Declaration) :
    Json.Fits (depth + 1) declaration.toJson := by
  simp [toJson, Json.Fits, Json.FitMembers]

end Declaration

/-! ## Carets -/

namespace Caret

/-- A caret whose numbers are less than two to the power of 64. -/
def Counted : Caret → Prop
  | offset count => count < 2 ^ 64
  | lineColumn line column => line < 2 ^ 64 ∧ column < 2 ^ 64

/-- A caret is decoded from its encoding. -/
theorem ofJson?_toJson {caret : Caret} (counted : caret.Counted) :
    ofJson? caret.toJson = some caret := by
  cases caret with
  | offset count => rw [toJson, ofJson?, Json.count?_integer counted, Option.map_some]
  | lineColumn line column =>
    have first : (Json.object [("line", .integer line), ("column", .integer column)]).member?
      "line" = some (.integer line) := rfl
    have second : (Json.object [("line", .integer line), ("column", .integer column)]).member?
      "column" = some (.integer column) := rfl
    rw [toJson, ofJson?, first, second]
    simp only [Option.bind_eq_bind, Option.bind_some, Json.count?_integer counted.1,
      Json.count?_integer counted.2]

/-- Only carets with small numbers are decoded. -/
theorem counted_of_ofJson? {json : Json} {caret : Caret} (decoded : ofJson? json = some caret) :
    caret.Counted := by
  unfold ofJson? at decoded
  split at decoded
  · next count =>
    obtain ⟨value, counts, rfl⟩ := Option.map_eq_some_iff.mp decoded
    exact Json.lt_of_count? counts
  · next members =>
    simp only [Option.bind_eq_bind, Option.bind_eq_some_iff, Option.some.injEq] at decoded
    obtain ⟨_, _, line, lines, _, _, column, columns, rfl⟩ := decoded
    exact ⟨Json.lt_of_count? lines, Json.lt_of_count? columns⟩
  · contradiction

/-- The encoding of a caret is nested twice at most, and its numbers are held. -/
theorem fits_toJson (depth : Nat) {caret : Caret} (counted : caret.Counted) :
    Json.Fits (depth + 2) caret.toJson := by
  cases caret with
  | offset count => exact ⟨Json.held_of_lt counted _, trivial⟩
  | lineColumn line column =>
    exact ⟨⟨Json.held_of_lt counted.1 _, Json.held_of_lt counted.2 _, trivial⟩, trivial⟩

end Caret

/-- Elements, parameter types, declared types and carets with numbers of 64 bits are got back from
their encodings, and so is whatever is decoded from JSON of any form. Of elements and types, the
objects that have the members of an encoding among others and the arrays of these members are such
forms. -/
theorem lossless_encodings :
    (Json.Lossless Element.toJson Element.ofJson? (fun _ => True) ∧
      Json.AcceptedInForms Element.toJson Element.ofJson?) ∧
    (∀ byNumber, Json.Lossless TypeRef.toJson (TypeRef.ofJson? byNumber) (fun _ => True) ∧
      Json.AcceptedInForms TypeRef.toJson (TypeRef.ofJson? byNumber)) ∧
    (Json.Lossless Declaration.toJson Declaration.ofJson? (fun _ => True) ∧
      Json.AcceptedInForms Declaration.toJson Declaration.ofJson?) ∧
    Json.Lossless Caret.toJson Caret.ofJson? Caret.Counted := by
  refine ⟨⟨?element, Element.acceptedInForms⟩, fun byNumber =>
    ⟨?type, TypeRef.acceptedInForms byNumber⟩, ⟨?declaration, Declaration.acceptedInForms⟩, ?caret⟩
  case element => exact Element.acceptedInForms.lossless (Element.fits_toJson 124)
  case type => exact (TypeRef.acceptedInForms byNumber).lossless (TypeRef.fits_toJson 126)
  case declaration => exact Declaration.acceptedInForms.lossless (Declaration.fits_toJson 126)
  case caret =>
    exact .of_encoded (fun _ => Caret.ofJson?_toJson) (fun _ => Caret.fits_toJson 125)
      fun _ _ => Caret.counted_of_ofJson?

end CaretName
