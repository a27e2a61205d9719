import CaretName.Clipboard.Provider
import Mathlib.Data.List.Infix

/-!
# Opening a clipboard

The names that a configuration may give and the programs that are known are two lists, and a
configuration is checked against the one before a clipboard is opened by the other.
`ClipboardConfig.opening_agrees` says that this never goes wrong: what passes the check fails to
open for nothing but a missing program, what does not pass it fails to open wherever it is tried,
and `auto` is nothing else than the first program that would open by its name.
-/
namespace CaretName

namespace Clipboard

variable {Event : Type}

/-- Writes one after the other, each to the clipboard as it is at the time, after events that there
have been: what they answer, and all events. -/
def run : List Event → List (Clipboard Event × Contents) →
    List (Except Failure Unit) × List Event
  | events, [] => ([], events)
  | events, (clipboard, contents) :: rest =>
    let (result, more) := clipboard contents
    let (results, after) := run (events ++ more) rest
    (result :: results, after)

/-- Every write answers for itself, and what happens is what each leads to, in order. -/
theorem run_eq (events : List Event) (writes : List (Clipboard Event × Contents)) :
    run events writes = (writes.map fun write => (write.1 write.2).1,
      events ++ writes.flatMap fun write => (write.1 write.2).2) := by
  induction writes generalizing events with
  | nil => simp [run]
  | cons write rest ih =>
    obtain ⟨clipboard, contents⟩ := write
    rw [run]
    show (let (results, after) := run (events ++ (clipboard contents).2) rest
      ((clipboard contents).1 :: results, after)) = _
    rw [ih, List.map_cons, List.flatMap_cons, List.append_assoc]

end Clipboard

/-- The clipboard of a program, with its runs as what can be seen of it. -/
def ClipboardProgram.clipboard (opened : ClipboardProgram) : Clipboard ClipboardEvent :=
  Clipboard.mapEvents ClipboardEvent.ran opened.write

namespace ClipboardConfig

variable {config : ClipboardConfig} {surroundings : Surroundings} {provider : Provider}

/-! ## What is opened -/

/-- The program that a configuration opens a clipboard for. -/
inductive Opens (config : ClipboardConfig) (surroundings : Surroundings) : ClipboardProgram → Prop
  /-- The user's own command. -/
  | command {word : String} {args : List String} (chosen : config.provider = "command")
    (words : config.command = word :: args) :
    Opens config surroundings ⟨word, surroundings.start word, args, none⟩
  /-- The first known program that is found. -/
  | first {before after : List Provider} {provider : Provider} {path : String} {program : Program}
    (chosen : config.provider = "auto") (order : Provider.all = before ++ provider :: after)
    (missing : ∀ other ∈ before, surroundings.find? other.program = none)
    (found : surroundings.find? provider.program = some (path, program)) :
    Opens config surroundings ⟨path, .ok program, provider.args, provider.clearArgs⟩
  /-- The known program with a name. -/
  | named {provider : Provider} {path : String} {program : Program}
    (known : provider ∈ Provider.all) (chosen : config.provider = provider.name)
    (found : surroundings.find? provider.program = some (path, program)) :
    Opens config surroundings ⟨path, .ok program, provider.args, provider.clearArgs⟩

/-- Whether a program that a configuration needs is missing. -/
inductive Lacks (config : ClipboardConfig) (surroundings : Surroundings) : Prop
  /-- None of the known programs is found. -/
  | all (chosen : config.provider = "auto")
    (missing : ∀ provider ∈ Provider.all, surroundings.find? provider.program = none)
  /-- The known program with a name is not found. -/
  | named {provider : Provider} (known : provider ∈ Provider.all)
    (chosen : config.provider = provider.name)
    (missing : surroundings.find? provider.program = none)

/-- The names that a configuration may give are those of the known programs and three others. -/
theorem mem_providers_iff {name : String} : name ∈ providers ↔
    name = "stdout" ∨ name = "command" ∨ name = "auto" ∨
      ∃ provider ∈ Provider.all, name = provider.name := by
  simp only [providers, Provider.all, List.mem_cons, List.not_mem_nil, or_false, exists_eq_or_imp,
    exists_eq_left]
  tauto

/-- Every known program is found by its name. -/
theorem named?_name (known : provider ∈ Provider.all) :
    Provider.named? provider.name = some provider := by
  revert provider
  decide

/-- No known program has one of the names that mean something else. -/
theorem name_ne (known : provider ∈ Provider.all) :
    provider.name ≠ "stdout" ∧ provider.name ≠ "command" ∧ provider.name ≠ "auto" := by
  revert provider
  decide

/-- Standard output is always opened. -/
theorem openClipboard_stdout (chosen : config.provider = "stdout") :
    config.openClipboard surroundings =
      .ok (Clipboard.mapEvents ClipboardEvent.printed Clipboard.lines) := by
  rw [openClipboard, chosen]
  rfl

/-- A command is opened if it has a program. -/
theorem openClipboard_command (chosen : config.provider = "command") :
    config.openClipboard surroundings =
      (openCommand surroundings config.command).map ClipboardProgram.clipboard := by
  rw [openClipboard, chosen]
  rfl

/-- The first known program that is found is opened. -/
theorem openClipboard_auto (chosen : config.provider = "auto") :
    config.openClipboard surroundings =
      (openFirst surroundings).map ClipboardProgram.clipboard := by
  rw [openClipboard, chosen]
  rfl

/-- The known program with a name is opened if it is found. -/
theorem openClipboard_named (known : provider ∈ Provider.all)
    (chosen : config.provider = provider.name) :
    config.openClipboard surroundings =
      match surroundings.find? provider.program with
      | some (path, program) => .ok
        (ClipboardProgram.clipboard ⟨path, .ok program, provider.args, provider.clearArgs⟩)
      | none => .error (notFound provider) := by
  obtain ⟨notStdout, notCommand, notAuto⟩ := name_ne known
  simp only [openClipboard, chosen, beq_iff_eq, notStdout, notCommand, notAuto, ite_false,
    openNamed, named?_name known, Provider.open?]
  cases surroundings.find? provider.program <;> rfl

/-- No other name is opened. -/
theorem openClipboard_unknown (foreign : config.provider ∉ providers) :
    config.openClipboard surroundings = .error (unknown config.provider) := by
  rw [mem_providers_iff, not_or, not_or, not_or] at foreign
  obtain ⟨notStdout, notCommand, notAuto, others⟩ := foreign
  have nothing : Provider.named? config.provider = none := by
    rw [Provider.named?, List.find?_eq_none]
    intro provider known same
    exact others ⟨provider, known, (beq_iff_eq.1 same).symm⟩
  simp only [openClipboard, beq_iff_eq, notStdout, notCommand, notAuto, ite_false, openNamed,
    nothing]
  rfl

/-- The first known program that is found is the first for which one is. -/
theorem openFirst_of_order {before after : List Provider} {path : String} {program : Program}
    (order : Provider.all = before ++ provider :: after)
    (missing : ∀ other ∈ before, surroundings.find? other.program = none)
    (found : surroundings.find? provider.program = some (path, program)) :
    openFirst surroundings = .ok ⟨path, .ok program, provider.args, provider.clearArgs⟩ := by
  have none : before.findSome? (·.open? surroundings) = none := by
    rw [List.findSome?_eq_none_iff]
    intro other held
    rw [Provider.open?, missing other held]
    rfl
  have here : provider.open? surroundings =
      some ⟨path, .ok program, provider.args, provider.clearArgs⟩ := by
    rw [Provider.open?, found]
    rfl
  rw [openFirst, order, List.findSome?_append, none, List.findSome?_cons, here]
  rfl

/-- Some known program is found, and then there is a first one, or none is. -/
theorem first_cases (surroundings : Surroundings) :
    (∃ before provider after path program, Provider.all = before ++ provider :: after ∧
      (∀ other ∈ before, surroundings.find? other.program = none) ∧
      surroundings.find? provider.program = some (path, program)) ∨
    ∀ provider ∈ Provider.all, surroundings.find? provider.program = none := by
  cases found : Provider.all.findSome? fun provider => surroundings.find? provider.program with
  | none => exact .inr (List.findSome?_eq_none_iff.1 found)
  | some place =>
    obtain ⟨before, provider, after, order, here, missing⟩ := List.findSome?_eq_some_iff.1 found
    exact .inl ⟨before, provider, after, place.1, place.2, order, missing, here⟩

/-- The clipboard of the program that a configuration opens one for is opened. -/
theorem Opens.openClipboard_eq {opened : ClipboardProgram}
    (opens : config.Opens surroundings opened) :
    config.openClipboard surroundings = .ok opened.clipboard := by
  cases opens with
  | command chosen words =>
    rw [openClipboard_command chosen, words]
    rfl
  | first chosen order missing found =>
    rw [openClipboard_auto chosen, openFirst_of_order order missing found]
    rfl
  | named known chosen found => rw [openClipboard_named known chosen, found]

/-- A missing program is a failure of the clipboard. -/
theorem Lacks.openClipboard_eq (lacks : config.Lacks surroundings) :
    ∃ message, config.openClipboard surroundings = .error (.clipboard message) := by
  cases lacks with
  | all chosen missing =>
    have none : Provider.all.findSome? (·.open? surroundings) = none := by
      rw [List.findSome?_eq_none_iff]
      intro provider known
      rw [Provider.open?, missing provider known]
      rfl
    rw [openClipboard_auto chosen, openFirst, none]
    exact ⟨_, rfl⟩
  | named known chosen missing =>
    rw [openClipboard_named known chosen, missing]
    exact ⟨_, rfl⟩

/-! ## What passes the check -/

/-- Whether a configuration passes the check: its provider has a name that it may have, and a
command has a program. -/
def Usable (config : ClipboardConfig) : Prop :=
  config.provider ∈ providers ∧ (config.provider = "command" → config.command ≠ [])

/-- The check is passed, or fails as one of the configuration. -/
theorem validate_cases (config : ClipboardConfig) (output : OutputConfig) :
    config.Usable ∧ (Config.mk config output).validate = .ok () ∨
      ¬ config.Usable ∧
        ∃ message, (Config.mk config output).validate = .error (.config message) := by
  by_cases known : config.provider ∈ providers
  · have listed : (!providers.contains config.provider) = false := by simpa using known
    by_cases missing : config.provider = "command" ∧ config.command = []
    · have empty : (config.provider == "command" && config.command.isEmpty) = true := by
        simpa using missing
      refine .inr ⟨fun usable => usable.2 missing.1 missing.2, ?_⟩
      simp only [Config.validate, Config.fault?, listed, empty]
      exact ⟨_, rfl⟩
    · have given : (config.provider == "command" && config.command.isEmpty) = false := by
        simpa using missing
      refine .inl ⟨⟨known, not_and.1 missing⟩, ?_⟩
      simp only [Config.validate, Config.fault?, listed, given]
      rfl
  · have unlisted : (!providers.contains config.provider) = true := by simpa using known
    refine .inr ⟨fun usable => known usable.1, ?_⟩
    simp only [Config.validate, Config.fault?, unlisted]
    exact ⟨_, rfl⟩

/-- What does not pass the check is opened nowhere. -/
theorem openClipboard_of_not_usable (unusable : ¬ config.Usable) (surroundings : Surroundings) :
    ∃ message, config.openClipboard surroundings = .error (.config message) := by
  by_cases known : config.provider ∈ providers
  · have empty : config.provider = "command" ∧ config.command = [] := by
      simpa [Usable, known] using unusable
    rw [openClipboard_command empty.1, empty.2]
    exact ⟨_, rfl⟩
  · rw [openClipboard_unknown known]
    exact ⟨_, rfl⟩

/-- What passes the check lacks a program, or is standard output, or opens the clipboard of a
program. -/
theorem Usable.cases (usable : config.Usable) (surroundings : Surroundings) :
    config.Lacks surroundings ∨ config.provider = "stdout" ∨
      ∃ opened, config.Opens surroundings opened := by
  rcases mem_providers_iff.1 usable.1 with chosen | chosen | chosen | ⟨provider, known, chosen⟩
  · exact .inr (.inl chosen)
  · obtain ⟨word, args, words⟩ := List.exists_cons_of_ne_nil (usable.2 chosen)
    exact .inr (.inr ⟨_, .command chosen words⟩)
  · rcases first_cases surroundings with
      ⟨before, provider, after, path, program, order, missing, found⟩ | missing
    · exact .inr (.inr ⟨_, .first chosen order missing found⟩)
    · exact .inl (.all chosen missing)
  · cases found : surroundings.find? provider.program with
    | none => exact .inl (.named known chosen found)
    | some place => exact .inr (.inr ⟨_, .named known chosen found⟩)

/-- What is opened is standard output or the clipboard of a program. -/
theorem openClipboard_eq_ok {clipboard : Clipboard ClipboardEvent}
    (opened : config.openClipboard surroundings = .ok clipboard) :
    (config.provider = "stdout" ∧
      clipboard = Clipboard.mapEvents ClipboardEvent.printed Clipboard.lines) ∨
    ∃ program, config.Opens surroundings program ∧ clipboard = program.clipboard := by
  by_cases usable : config.Usable
  · rcases usable.cases surroundings with lacks | chosen | ⟨program, opens⟩
    · obtain ⟨message, failed⟩ := lacks.openClipboard_eq
      rw [opened] at failed
      contradiction
    · rw [openClipboard_stdout chosen] at opened
      exact .inl ⟨chosen, (Except.ok.inj opened).symm⟩
    · rw [opens.openClipboard_eq] at opened
      exact .inr ⟨program, opens, (Except.ok.inj opened).symm⟩
  · obtain ⟨message, failed⟩ := openClipboard_of_not_usable usable surroundings
    rw [opened] at failed
    contradiction

/-! ## Agreement -/

/-- The configuration with another provider. -/
def naming (config : ClipboardConfig) (name : String) : ClipboardConfig :=
  { config with provider := name }

/-- What fails to open as a configuration is what does not pass the check. -/
theorem openClipboard_config_iff (config : ClipboardConfig) (output : OutputConfig)
    (surroundings : Surroundings) :
    (∃ message, config.openClipboard surroundings = .error (.config message)) ↔
      ∃ failure, (Config.mk config output).validate = .error failure := by
  rcases validate_cases config output with ⟨usable, passes⟩ | ⟨unusable, message, fails⟩
  · rw [passes]
    rcases usable.cases surroundings with lacks | chosen | ⟨opened, opens⟩
    · obtain ⟨message, failed⟩ := lacks.openClipboard_eq
      simp [failed]
    · simp [openClipboard_stdout chosen]
    · simp [opens.openClipboard_eq]
  · obtain ⟨message, failed⟩ := openClipboard_of_not_usable unusable surroundings
    simp [failed, fails]

/-- What fails to open as a clipboard passes the check and lacks a program. -/
theorem openClipboard_clipboard_iff (config : ClipboardConfig) (output : OutputConfig)
    (surroundings : Surroundings) :
    (∃ message, config.openClipboard surroundings = .error (.clipboard message)) ↔
      (Config.mk config output).validate = .ok () ∧ config.Lacks surroundings := by
  rcases validate_cases config output with ⟨usable, passes⟩ | ⟨unusable, message, fails⟩
  · have exact : (∃ message, config.openClipboard surroundings = .error (.clipboard message)) →
        config.Lacks surroundings := by
      rintro ⟨message, failed⟩
      rcases usable.cases surroundings with lacks | chosen | ⟨opened, opens⟩
      · exact lacks
      · simp [openClipboard_stdout chosen] at failed
      · simp [opens.openClipboard_eq] at failed
    exact ⟨fun failed => ⟨passes, exact failed⟩, fun both => both.2.openClipboard_eq⟩
  · obtain ⟨message, failed⟩ := openClipboard_of_not_usable unusable surroundings
    simp [failed, fails]

/-- What opens passes the check and lacks no program. -/
theorem openClipboard_ok_iff (config : ClipboardConfig) (output : OutputConfig)
    (surroundings : Surroundings) :
    (∃ clipboard, config.openClipboard surroundings = .ok clipboard) ↔
      (Config.mk config output).validate = .ok () ∧ ¬ config.Lacks surroundings := by
  have invalid := openClipboard_config_iff config output surroundings
  have lacking := openClipboard_clipboard_iff config output surroundings
  rcases validate_cases config output with ⟨usable, passes⟩ | ⟨unusable, message, fails⟩
  · rcases usable.cases surroundings with lacks | chosen | ⟨opened, opens⟩
    · obtain ⟨message, failed⟩ := lacks.openClipboard_eq
      simp [failed, lacks]
    · rw [openClipboard_stdout chosen] at lacking ⊢
      simpa [passes] using lacking
    · rw [opens.openClipboard_eq] at lacking ⊢
      simpa [passes] using lacking
  · obtain ⟨message, failed⟩ := openClipboard_of_not_usable unusable surroundings
    simp [failed, fails]

/-- A known program is opened by its name if it is found. -/
theorem exists_openClipboard_naming (config : ClipboardConfig) (known : provider ∈ Provider.all) :
    (∃ clipboard, (config.naming provider.name).openClipboard surroundings = .ok clipboard) ↔
      ∃ place, surroundings.find? provider.program = some place := by
  rw [openClipboard_named known rfl]
  cases surroundings.find? provider.program <;> simp

/-- What `auto` opens is the first known program that is found, as its name would open it. -/
theorem openClipboard_auto_eq_naming (config : ClipboardConfig) {before after : List Provider}
    {place : String × Program} (order : Provider.all = before ++ provider :: after)
    (missing : ∀ other ∈ before, surroundings.find? other.program = none)
    (found : surroundings.find? provider.program = some place) :
    (config.naming "auto").openClipboard surroundings =
      (config.naming provider.name).openClipboard surroundings := by
  have known : provider ∈ Provider.all := by simp [order]
  rw [openClipboard_auto rfl, openFirst_of_order order missing found,
    openClipboard_named known rfl, found]
  rfl

/-- `auto` opens if and only if some known program would by its name. -/
theorem exists_openClipboard_auto (config : ClipboardConfig) (surroundings : Surroundings) :
    (∃ clipboard, (config.naming "auto").openClipboard surroundings = .ok clipboard) ↔
      ∃ provider ∈ Provider.all, ∃ clipboard,
        (config.naming provider.name).openClipboard surroundings = .ok clipboard := by
  rcases first_cases surroundings with
    ⟨before, provider, after, path, program, order, missing, found⟩ | missing
  · have known : provider ∈ Provider.all := by simp [order]
    have opens := (exists_openClipboard_naming config known).2 ⟨_, found⟩
    rw [openClipboard_auto_eq_naming config order missing found]
    exact iff_of_true opens ⟨provider, known, opens⟩
  · have lacks : (config.naming "auto").Lacks surroundings := .all rfl missing
    obtain ⟨message, failed⟩ := lacks.openClipboard_eq
    rw [failed]
    refine iff_of_false (by simp) ?_
    rintro ⟨provider, known, opens⟩
    obtain ⟨place, found⟩ := (exists_openClipboard_naming config known).1 opens
    rw [missing provider known] at found
    contradiction

/-- The check and the opening of a clipboard agree, and `auto` opens the first known program that
would open by its name and then behaves like it, whatever is written. -/
theorem opening_agrees (config : ClipboardConfig) (output : OutputConfig)
    (surroundings : Surroundings) :
    ((∃ message, config.openClipboard surroundings = .error (.config message)) ↔
      ∃ failure, (Config.mk config output).validate = .error failure) ∧
    ((∃ message, config.openClipboard surroundings = .error (.clipboard message)) ↔
      (Config.mk config output).validate = .ok () ∧ config.Lacks surroundings) ∧
    ((∃ clipboard, config.openClipboard surroundings = .ok clipboard) ↔
      (Config.mk config output).validate = .ok () ∧ ¬ config.Lacks surroundings) ∧
    ((∃ clipboard, (config.naming "auto").openClipboard surroundings = .ok clipboard) ↔
      ∃ provider ∈ Provider.all, ∃ clipboard,
        (config.naming provider.name).openClipboard surroundings = .ok clipboard) ∧
    ∀ before provider after clipboard, Provider.all = before ++ provider :: after →
      (∀ other ∈ before, ¬ ∃ earlier,
        (config.naming other.name).openClipboard surroundings = .ok earlier) →
      (config.naming provider.name).openClipboard surroundings = .ok clipboard →
      ∃ found, (config.naming "auto").openClipboard surroundings = .ok found ∧
        ∀ (events : List ClipboardEvent) (steps : List Contents),
          Clipboard.run events (steps.map (found, ·)) =
            Clipboard.run events (steps.map (clipboard, ·)) := by
  refine ⟨openClipboard_config_iff config output surroundings,
    openClipboard_clipboard_iff config output surroundings,
    openClipboard_ok_iff config output surroundings,
    exists_openClipboard_auto config surroundings, ?_⟩
  intro before provider after clipboard order earlier opened
  have listed : ∀ other ∈ before, other ∈ Provider.all := fun other held => by simp [order, held]
  have known : provider ∈ Provider.all := by simp [order]
  have missing : ∀ other ∈ before, surroundings.find? other.program = none := by
    intro other held
    have absent := earlier other held
    rw [exists_openClipboard_naming config (listed other held)] at absent
    exact Option.eq_none_iff_forall_ne_some.2 fun place found => absent ⟨place, found⟩
  obtain ⟨place, found⟩ := (exists_openClipboard_naming config known).1 ⟨clipboard, opened⟩
  exact ⟨clipboard, (openClipboard_auto_eq_naming config order missing found).trans opened,
    fun events steps => rfl⟩

/-- A machine with two of the known programs and nothing else. -/
def twoPrograms : Surroundings where
  read _ := .error .missing
  find? name :=
    if name = "xsel" ∨ name = "xclip" then some ("/bin/" ++ name, ⟨name, 0, true⟩) else none
  start _ := .error .missing
  environment := []
  home := none

/-- Where two of the known programs are found, `auto` writes by the one that comes first. -/
theorem opening_agrees_twoPrograms :
    ∃ named found, (naming {} "xclip").openClipboard twoPrograms = .ok named ∧
      (naming {} "auto").openClipboard twoPrograms = .ok found ∧
      (∀ (events : List ClipboardEvent) (steps : List Contents),
        Clipboard.run events (steps.map (found, ·)) = Clipboard.run events (steps.map (named, ·))) ∧
      Clipboard.run [] [(named, some "p.A")] =
        ([.ok ()], [.ran ⟨"xclip", ["-selection", "clipboard"], some "p.A"⟩]) := by
  have missing : ∀ other ∈ Provider.all.take 2, ¬ ∃ earlier,
      (naming {} other.name).openClipboard twoPrograms = .ok earlier := by
    intro other held
    have known : other ∈ Provider.all := List.mem_of_mem_take held
    rw [exists_openClipboard_naming {} known, ← Option.isSome_iff_exists]
    clear known
    revert other
    decide
  obtain ⟨found, opened, same⟩ := (opening_agrees {} {} twoPrograms).2.2.2.2 (Provider.all.take 2)
    { name := "xclip", program := "xclip", args := ["-selection", "clipboard"] }
    (Provider.all.drop 3) _ rfl missing rfl
  exact ⟨_, found, rfl, opened, same, rfl⟩

end ClipboardConfig

end CaretName
