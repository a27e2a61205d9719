import CaretName.CopyName
import CaretName.Proofs.Resolution

/-!
# Runs of copying

Names are copied one after the other to one clipboard, which keeps a record of what it is given.
`Copy.run_recorded` says what becomes of it over any run: every call answers what looking for its
name answers, whatever was done before, and the record grows by what each call writes, in order. That
is one write for a name, one for a clear, and nothing at all for a failure.
-/
namespace CaretName

/-- One call to copy a name: what the machine is like at the time, and what is asked for. -/
structure Copy where
  surroundings : Surroundings
  path : String
  caret : Option Caret
  clearOnUnresolved : Bool

namespace Copy

variable (copy : Copy)

/-- What looking for the name answers. -/
def answer : Except Trouble Outcome := copy.surroundings.resolvePath copy.path copy.caret

/-- Make the call on a clipboard with a record. -/
def step (record : List Contents) : Except Trouble Outcome × List Contents :=
  let (result, events) := copy.surroundings.copyName copy.path copy.caret copy.clearOnUnresolved
    (Clipboard.recorder none)
  (result, record ++ events)

/-- Make several calls, one after the other, on a clipboard with a record. -/
def run : List Contents → List Copy → List (Except Trouble Outcome) × List Contents
  | record, [] => ([], record)
  | record, copy :: rest =>
    let (result, between) := copy.step record
    let (results, after) := run between rest
    (result :: results, after)

/-- What a call is to write: the name that is found, or a clear where nothing is and that is asked
for. -/
def written : List Contents :=
  match copy.answer with
  | .ok (.resolved resolution) => [some resolution.qualifiedName]
  | .ok .unresolved => if copy.clearOnUnresolved then [none] else []
  | .ok .unsupported => []
  | .error _ => []

/-- Why a call fails: the file cannot be read or is not text, or its text has no such caret. -/
inductive Fails : Trouble → Prop
  /-- The system refuses to read the file. -/
  | unreadable {refusal : Refusal} (known : (Language.ofPath? copy.path).isSome = true)
    (refused : copy.surroundings.read copy.path = .error refusal) :
    Fails (.during ("Failed to read " ++ copy.path) (.system refusal.words))
  /-- The bytes of the file are not those of a text. -/
  | notText {bytes : ByteArray} (known : (Language.ofPath? copy.path).isSome = true)
    (read : copy.surroundings.read copy.path = .ok bytes)
    (invalid : String.fromUTF8? bytes = none) :
    Fails (.during ("Failed to read " ++ copy.path) (.system Refusal.notText.words))
  /-- The caret is at no position of the text. -/
  | caret {bytes : ByteArray} {text : String} {caret : Caret} {error : CaretError}
    (known : (Language.ofPath? copy.path).isSome = true)
    (read : copy.surroundings.read copy.path = .ok bytes)
    (valid : String.fromUTF8? bytes = some text) (asked : copy.caret = some caret)
    (refused : caret.Refused text.toList error) :
    Fails (.during ("Invalid caret position for " ++ copy.path) (.failed error.toFailure))

variable {copy}

/-- A call answers what looking for its name answers, and the record grows by what it writes. -/
theorem step_eq (record : List Contents) :
    copy.step record = (copy.answer, record ++ copy.written) := by
  have looked : copy.surroundings.resolvePath copy.path copy.caret = copy.answer := rfl
  rw [step, Surroundings.copyName, written, looked]
  cases copy.answer with
  | error trouble => rfl
  | ok outcome =>
    cases outcome with
    | unsupported => rfl
    | unresolved => cases copy.clearOnUnresolved <;> rfl
    | resolved resolution => rfl

/-- The answer for a file of a known language. -/
theorem answer_of_known (known : (Language.ofPath? copy.path).isSome = true) :
    copy.answer = (copy.surroundings.source copy.path).bind fun source =>
      (Surroundings.caretByte copy.path source copy.caret).bind fun byte =>
        (withActivity ("Failed to analyze " ++ copy.path)
          (((SourceFile.ofSource source).resolve copy.path byte).mapError .failed)).bind
            fun resolution => .ok (.ofResolution resolution) := by
  have looked : ¬ (Language.ofPath? copy.path).isNone = true := by
    rw [← Option.not_isSome, known]
    decide
  rw [answer, Surroundings.resolvePath, if_neg looked]
  rfl

/-- The source of a file that is text. -/
theorem source_of_text {bytes : ByteArray} {text : String}
    (read : copy.surroundings.read copy.path = .ok bytes)
    (valid : String.fromUTF8? bytes = some text) :
    copy.surroundings.source copy.path = .ok text := by
  have words : copy.surroundings.readText copy.path = .ok text := by
    simp only [Surroundings.readText, read, bind, Except.bind, valid]
  rw [Surroundings.source, words]
  rfl

/-- A call with a reason to fail fails for it. -/
theorem Fails.answer_eq {trouble : Trouble} (fails : copy.Fails trouble) :
    copy.answer = .error trouble := by
  cases fails with
  | unreadable known refused =>
    rw [answer_of_known known, Surroundings.source, Surroundings.readText, refused]
    rfl
  | @notText bytes known read invalid =>
    have source : copy.surroundings.source copy.path =
        .error (.during ("Failed to read " ++ copy.path) (.system Refusal.notText.words)) := by
      have words : copy.surroundings.readText copy.path = .error .notText := by
        simp only [Surroundings.readText, read, bind, Except.bind, invalid]
      rw [Surroundings.source, words]
      rfl
    rw [answer_of_known known, source]
    rfl
  | caret known read valid asked refused =>
    rw [answer_of_known known, source_of_text read valid, asked]
    show (Surroundings.caretByte copy.path _ (some _)).bind _ = _
    rw [Surroundings.caretByte, refused.byte_eq]
    rfl

/-- Once its caret is found a call does not fail any more. -/
theorem exists_answer {source : String} {byte : Option Nat}
    (known : (Language.ofPath? copy.path).isSome = true)
    (read : copy.surroundings.source copy.path = .ok source)
    (stands : Surroundings.caretByte copy.path source copy.caret = .ok byte)
    (within : ∀ position ∈ byte, position ≤ source.utf8ByteSize) :
    ∃ resolution, copy.answer = .ok (.ofResolution resolution) := by
  rw [answer_of_known known, read]
  show ∃ resolution, (Surroundings.caretByte copy.path source copy.caret).bind _ = _
  rw [stands]
  cases resolved : (SourceFile.ofSource source).resolve copy.path byte with
  | ok resolution =>
    refine ⟨resolution, ?_⟩
    show (withActivity _ (((SourceFile.ofSource source).resolve copy.path byte).mapError _)).bind _
      = _
    rw [resolved]
    rfl
  | error failure =>
    obtain ⟨position, asked, past, -⟩ :=
      ((SourceFile.resolve_request source copy.path byte).1 failure).1 resolved
    exact absurd (within position asked) (Nat.not_le.2 past)

/-- A call is about a file of another language, or has a reason to fail, or gives a name or says
that there is none. -/
theorem answer_cases (copy : Copy) :
    (Language.ofPath? copy.path = none ∧ copy.answer = .ok .unsupported) ∨
    (Language.ofPath? copy.path).isSome = true ∧ ((∃ trouble, copy.Fails trouble) ∨
      ∃ resolution, copy.answer = .ok (.ofResolution resolution)) := by
  cases language : Language.ofPath? copy.path with
  | none => exact .inl ⟨rfl, by rw [answer, Surroundings.resolvePath, language]; rfl⟩
  | some found =>
    have known : (Language.ofPath? copy.path).isSome = true := by rw [language]; rfl
    refine .inr ⟨rfl, ?_⟩
    cases read : copy.surroundings.read copy.path with
    | error refusal => exact .inl ⟨_, .unreadable known read⟩
    | ok bytes =>
      cases valid : String.fromUTF8? bytes with
      | none => exact .inl ⟨_, .notText known read valid⟩
      | some text =>
        have source := source_of_text read valid
        cases asked : copy.caret with
        | none =>
          have stands : Surroundings.caretByte copy.path text copy.caret = .ok none := by
            rw [asked]
            rfl
          exact .inr (exists_answer known source stands (by simp))
        | some caret =>
          rcases caret.exists_byte_or_refused text.toList with ⟨byte, stands⟩ | ⟨error, refused⟩
          · have here : Surroundings.caretByte copy.path text copy.caret = .ok (some byte) := by
              rw [asked, Surroundings.caretByte, stands]
              rfl
            refine .inr (exists_answer known source here ?_)
            rintro position ⟨⟩
            exact SourceFile.byte_le_of_byte_eq_ok stands
          · exact .inl ⟨_, .caret known read valid asked refused⟩

/-- A call is answered without looking exactly if the file is of no known language. -/
theorem answer_eq_unsupported :
    copy.answer = .ok .unsupported ↔ Language.ofPath? copy.path = none := by
  rcases answer_cases copy with
    ⟨other, unsupported⟩ | ⟨known, ⟨trouble, fails⟩ | ⟨resolution, found⟩⟩
  · simp [other, unsupported]
  · simp [fails.answer_eq, Option.isSome_iff_ne_none.1 known]
  · cases resolution <;> simp [found, Outcome.ofResolution, Option.isSome_iff_ne_none.1 known]

/-- A call fails exactly for a reason to. -/
theorem answer_eq_error {trouble : Trouble} :
    copy.answer = .error trouble ↔ copy.Fails trouble := by
  refine ⟨fun failed => ?_, Fails.answer_eq⟩
  rcases answer_cases copy with
    ⟨-, unsupported⟩ | ⟨-, ⟨reason, fails⟩ | ⟨resolution, found⟩⟩
  · rw [unsupported] at failed
    contradiction
  · obtain rfl : reason = trouble := Except.error.inj (fails.answer_eq.symm.trans failed)
    exact fails
  · rw [found] at failed
    contradiction

/-- Over a run of calls each answers what looking for its name answers, whatever the others are,
and what is recorded is what they write, in order. -/
theorem run_recorded (record : List Contents) (copies : List Copy) :
    run record copies = (copies.map answer, record ++ copies.flatMap written) ∧
    (∀ copy : Copy, copy.answer = .ok .unsupported ↔ Language.ofPath? copy.path = none) ∧
    (∀ (copy : Copy) (trouble : Trouble), copy.answer = .error trouble ↔ copy.Fails trouble) := by
  refine ⟨?_, fun copy => answer_eq_unsupported, fun copy trouble => answer_eq_error⟩
  induction copies generalizing record with
  | nil => simp [run]
  | cons copy rest ih =>
    rw [run, step_eq]
    show (let (results, after) := run (record ++ copy.written) rest
      (copy.answer :: results, after)) = _
    rw [ih, List.map_cons, List.flatMap_cons, List.append_assoc]

end Copy

end CaretName
