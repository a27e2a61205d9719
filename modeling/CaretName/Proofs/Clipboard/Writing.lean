import CaretName.Proofs.Clipboard.Opening

/-!
# Writing to a clipboard

A clipboard is written to any number of times, and each time its program may end in another way.
`ClipboardProgram.run_writes` says what becomes of this for a program that starts and reads what it
is given: each write runs it once, in a way that this write alone decides, and fails if that run
does. On standard output each text comes to stand on a line of its own.
-/
namespace CaretName

namespace ClipboardProgram

/-- One write to a clipboard. -/
structure Write where
  contents : Contents
  /-- The status that the program ends with this time. -/
  status : Nat

variable (opened : ClipboardProgram)

/-- The clipboard at a time when its program ends with a status. -/
def ending (status : Nat) : ClipboardProgram :=
  { opened with program := opened.program.map fun program => { program with status } }

/-- Several writes, after events that there have been: what they answer, and all events. -/
def session (events : List ClipboardEvent) (writes : List Write) :
    List (Except Failure Unit) × List ClipboardEvent :=
  Clipboard.run events
    (writes.map fun write => ((opened.ending write.status).clipboard, write.contents))

/-- The run of a program that contents ask for: a text is its whole input, and a clear is a run of
its own kind, without input, or else an empty text. -/
def runFor (name : String) : Contents → Run
  | some text => ⟨name, opened.args, some text⟩
  | none =>
    match opened.clearArgs with
    | some args => ⟨name, args, none⟩
    | none => ⟨name, opened.args, some ""⟩

/-- What a write answers when the program ends with a status. -/
def answer (status : Nat) : Except Failure Unit :=
  if status = 0 then .ok () else .error (opened.ended status)

variable {opened} {program : Program}

/-- A program that starts and reads its input is run once, and fails the write by its status. -/
theorem run_ending (starts : opened.program = .ok program) (reads : program.reads = true)
    (status : Nat) (args : List String) (input : Option String) :
    (opened.ending status).run args input =
      (opened.answer status, [⟨program.name, args, input⟩]) := by
  have started : (opened.ending status).program = .ok { program with status } := by
    rw [ending, starts]
    rfl
  have verdict : (opened.ending status).verdict { program with status } input =
      opened.answer status := by
    rw [ClipboardProgram.verdict, reads, answer]
    by_cases ends : status = 0 <;> simp [ends, ended, ending]
  rw [ClipboardProgram.run, started]
  show ((opened.ending status).verdict { program with status } input,
    [Run.mk program.name args (if program.reads then input else none)]) = _
  rw [verdict, reads]
  rfl

/-- A write runs the program once, as its contents ask for. -/
theorem clipboard_ending (starts : opened.program = .ok program) (reads : program.reads = true)
    (write : Write) : (opened.ending write.status).clipboard write.contents =
      (opened.answer write.status, [.ran (opened.runFor program.name write.contents)]) := by
  obtain ⟨contents, status⟩ := write
  have once := run_ending starts reads status
  have written : (opened.ending status).write contents =
      (opened.answer status, [opened.runFor program.name contents]) := by
    cases contents with
    | some text => exact once opened.args (some text)
    | none =>
      have kept : (opened.ending status).clearArgs = opened.clearArgs := rfl
      rw [ClipboardProgram.write, runFor, kept]
      cases opened.clearArgs with
      | some args => exact once args none
      | none => exact once opened.args (some "")
  simp only [ClipboardProgram.clipboard, Clipboard.mapEvents, written, List.map_cons, List.map_nil]

/-- Over any writes each runs the program once, as its own contents ask for, and fails by its own
status alone. -/
theorem session_eq (starts : opened.program = .ok program) (reads : program.reads = true)
    (events : List ClipboardEvent) (writes : List Write) :
    opened.session events writes = (writes.map fun write => opened.answer write.status,
      events ++ writes.map fun write => .ran (opened.runFor program.name write.contents)) := by
  have each := clipboard_ending starts reads
  rw [session, Clipboard.run_eq, List.map_map, List.flatMap_map]
  simp only [Function.comp_def, each, ← List.map_eq_flatMap]

end ClipboardProgram

/-- What is printed over any writes is each text on a line of its own, in order. -/
theorem Clipboard.join_lines (printed : List String) (steps : List Contents) :
    String.join (run printed (steps.map (lines, ·))).2 =
      String.join printed ++ String.join ((steps.filterMap id).map (· ++ "\n")) := by
  have each : ∀ steps : List Contents, (steps.flatMap fun contents => (lines contents).2) =
      (steps.filterMap id).map (· ++ "\n") := by
    intro steps
    induction steps with
    | nil => rfl
    | cons contents rest ih =>
      rw [List.flatMap_cons, ih]
      cases contents <;> rfl
  rw [run_eq, List.flatMap_map, each, String.join_append]

namespace ClipboardProgram

open ClipboardConfig

/-- Over any writes to the clipboard of a program that starts and reads what it is given, each runs
the program once, as its own contents ask for, and fails exactly if that run does, by its status.
On standard output each text comes to stand on a line of its own, and a clear adds nothing. -/
theorem run_writes :
    (∀ {config : ClipboardConfig} {surroundings : Surroundings} {opened : ClipboardProgram}
      {program : Program}, config.Opens surroundings opened → opened.program = .ok program →
      program.reads = true → config.openClipboard surroundings = .ok opened.clipboard ∧
        ∀ (events : List ClipboardEvent) (writes : List Write), opened.session events writes =
          (writes.map fun write => opened.answer write.status,
            events ++ writes.map fun write => .ran (opened.runFor program.name write.contents))) ∧
    ∀ (printed : List String) (steps : List Contents),
      String.join (Clipboard.run printed (steps.map (Clipboard.lines, ·))).2 =
        String.join printed ++ String.join ((steps.filterMap id).map (· ++ "\n")) := by
  refine ⟨fun opens starts reads => ?_, Clipboard.join_lines⟩
  exact ⟨opens.openClipboard_eq, session_eq starts reads⟩

/-- A clear that fails between two texts, on a program that clears in a way of its own. -/
theorem run_writes_xsel :
    ClipboardProgram.session ⟨"/bin/xsel", .ok ⟨"xsel", 0, true⟩, ["--clipboard", "--input"],
        some ["--clipboard", "--clear"]⟩ [] [⟨some "p.A", 0⟩, ⟨none, 1⟩, ⟨some "p.B", 0⟩] =
      ([.ok (), .error (.clipboard "/bin/xsel exited with exit status: 1"), .ok ()],
        [.ran ⟨"xsel", ["--clipboard", "--input"], some "p.A"⟩,
          .ran ⟨"xsel", ["--clipboard", "--clear"], none⟩,
          .ran ⟨"xsel", ["--clipboard", "--input"], some "p.B"⟩]) := by
  have opens : Opens (naming {} "xsel") twoPrograms ⟨"/bin/xsel", .ok ⟨"xsel", 0, true⟩,
      ["--clipboard", "--input"], some ["--clipboard", "--clear"]⟩ :=
    .named (List.getElem_mem (by decide : 3 < Provider.all.length)) rfl rfl
  rw [(run_writes.1 opens rfl rfl).2]
  rfl

end ClipboardProgram

end CaretName
