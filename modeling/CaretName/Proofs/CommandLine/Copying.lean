import CaretName.CommandLine.Report
import CaretName.Proofs.Clipboard.Opening
import CaretName.Proofs.Config.Layers
import CaretName.Proofs.CopyName

/-!
# What copying prints

Two places print the name that is copied: the clipboard that is standard output, and the command
itself once it is done. `CommandLine.copy_prints` says that between them a name is printed once or
not at all, as the configuration asks for, and that nothing is printed where copying fails or there
is no name. A file of another language is reported as such by all commands alike, whatever the
machine is like.
-/
namespace CaretName

namespace Report

/-- A report after no events is as it is. -/
theorem after_nil (report : Report) : Report.after [] report = report := by
  show { report with output := "" ++ report.output, runs := report.runs } = report
  rw [String.empty_append]

/-- Programs that are run print nothing. -/
theorem output_after_runs (runs : List Run) (report : Report) :
    (Report.after (runs.map ClipboardEvent.ran) report).output = report.output := by
  induction runs with
  | nil => rw [List.map_nil, after_nil]
  | cons run runs ih => exact ih

/-- A text that is printed comes before the output. -/
theorem output_after_printed (text : String) (report : Report) :
    (Report.after [.printed text] report).output = text ++ report.output := by
  show "" ++ text ++ report.output = _
  rw [String.empty_append]

end Report

namespace CommandLine

variable {surroundings : Surroundings} {config : Config} {path : String} {caret : Option Caret}
  {configPath : Option String} {clipboard : Clipboard ClipboardEvent} {outcome : Outcome}

/-- The clipboard takes what an outcome asks it to hold, if it asks for anything. -/
def Takes (config : Config) (clipboard : Clipboard ClipboardEvent) (outcome : Outcome) : Prop :=
  ∀ contents ∈ outcome.contents? config.clipboard.clearOnUnresolved, (clipboard contents).1 = .ok ()

/-- Whether a name that is copied is printed: standard output is what it is copied to, or printing
is asked for. -/
def ShowsName (config : Config) : Prop :=
  config.clipboard.provider = "stdout" ∨ config.output.echoStatus = true

instance : Decidable (ShowsName config) := inferInstanceAs (Decidable (_ ∨ _))

/-- What a report of copying says to whoever reads standard output and the status, given what
looking for the name has come to. -/
structure Says (config : Config) (clipboard : Clipboard ClipboardEvent)
    (found : Except Trouble Outcome) (report : Report) : Prop where
  /-- Copying succeeds if looking does and the clipboard takes what it is given. -/
  success : report.status = 0 ↔ ∃ outcome, found = .ok outcome ∧ Takes config clipboard outcome
  /-- A failure prints nothing. -/
  failure : report.status ≠ 0 → report.output = ""
  /-- A name is printed once on a line of its own, or not at all. -/
  name : ∀ resolution, found = .ok (.resolved resolution) → report.status = 0 →
    report.output = if ShowsName config then onLine resolution.qualifiedName else ""
  /-- Where there is no name nothing is printed. -/
  noName : found = .ok .unresolved → report.output = ""

/-! ## The report by what is found -/

/-- With a configuration that can be used, a command copies with it. -/
theorem copy_eq (loads : Config.load surroundings configPath = .ok config)
    (valid : config.validate = .ok ()) :
    copy surroundings path caret configPath = copyWith surroundings config path caret := by
  have faultless : config.fault? = none := by
    rw [Config.validate] at valid
    split at valid
    · contradiction
    · assumption
  simp only [copy, loads, faultless]

/-- What copying comes to for a file of a known language, when a clipboard is opened. -/
theorem copyOutcome_of_opened (known : (Language.ofPath? path).isSome = true)
    (opened : config.clipboard.openClipboard surroundings = .ok clipboard) :
    copyOutcome surroundings config path caret =
      surroundings.copyName path caret config.clipboard.clearOnUnresolved clipboard := by
  have looked : ¬ (Language.ofPath? path).isNone = true := by
    rw [← Option.not_isSome, known]
    decide
  rw [copyOutcome, if_neg looked, opened]

/-- If nothing is looked up successfully the trouble is all there is to report. -/
theorem copyWith_of_error {trouble : Trouble} (known : (Language.ofPath? path).isSome = true)
    (opened : config.clipboard.openClipboard surroundings = .ok clipboard)
    (found : surroundings.resolvePath path caret = .error trouble) :
    copyWith surroundings config path caret = .failing trouble := by
  rw [copyWith, copyOutcome_of_opened known opened, Surroundings.copyName, found]
  exact Report.after_nil _

/-- If the clipboard is to stay as it is only the outcome is reported. -/
theorem copyWith_of_unchanged (known : (Language.ofPath? path).isSome = true)
    (opened : config.clipboard.openClipboard surroundings = .ok clipboard)
    (found : surroundings.resolvePath path caret = .ok outcome)
    (unchanged : outcome.contents? config.clipboard.clearOnUnresolved = none) :
    copyWith surroundings config path caret = .printing (echo config path outcome) := by
  simp only [copyWith, copyOutcome_of_opened known opened, Surroundings.copyName, found,
    Surroundings.publish, unchanged]
  exact Report.after_nil _

/-- If the clipboard is to hold something else, what happens at it is reported before the outcome,
or before its failure. -/
theorem copyWith_of_written {contents : Contents} (known : (Language.ofPath? path).isSome = true)
    (opened : config.clipboard.openClipboard surroundings = .ok clipboard)
    (found : surroundings.resolvePath path caret = .ok outcome)
    (change : outcome.contents? config.clipboard.clearOnUnresolved = some contents) :
    copyWith surroundings config path caret = Report.after (clipboard contents).2
      (match (clipboard contents).1 with
      | .ok () => .printing (echo config path outcome)
      | .error failure => .failing (.during contents.activity (.failed failure))) := by
  simp only [copyWith, copyOutcome_of_opened known opened, Surroundings.copyName, found,
    Surroundings.publish, change]
  cases (clipboard contents).1 <;> rfl

/-! ## What is printed at a clipboard -/

/-- What a write prints by itself: a text on standard output. -/
def printedAt (config : ClipboardConfig) (contents : Contents) : String :=
  if config.provider = "stdout" then contents.elim "" onLine else ""

/-- A program is not standard output. -/
theorem provider_ne_of_opens {program : ClipboardProgram}
    (opens : config.clipboard.Opens surroundings program) :
    config.clipboard.provider ≠ "stdout" := by
  cases opens with
  | command chosen words =>
    rw [chosen]
    decide
  | first chosen order missing found =>
    rw [chosen]
    decide
  | named known chosen found =>
    rw [chosen]
    exact (ClipboardConfig.name_ne known).1

/-- A write to a clipboard that is opened prints a text on standard output and nothing elsewhere. -/
theorem output_after_write
    (opened : config.clipboard.openClipboard surroundings = .ok clipboard) (contents : Contents)
    (report : Report) : (Report.after (clipboard contents).2 report).output =
      printedAt config.clipboard contents ++ report.output := by
  rcases ClipboardConfig.openClipboard_eq_ok opened with ⟨chosen, rfl⟩ | ⟨program, opens, rfl⟩
  · rw [printedAt, if_pos chosen]
    cases contents with
    | none => exact congrArg Report.output (Report.after_nil report)
    | some text => exact Report.output_after_printed (onLine text) report
  · rw [printedAt, if_neg (provider_ne_of_opens opens), String.empty_append]
    exact Report.output_after_runs (program.write contents).2 report

/-- Standard output takes everything. -/
theorem provider_ne_of_refused {contents : Contents} {failure : Failure}
    (opened : config.clipboard.openClipboard surroundings = .ok clipboard)
    (refused : (clipboard contents).1 = .error failure) : config.clipboard.provider ≠ "stdout" := by
  rcases ClipboardConfig.openClipboard_eq_ok opened with ⟨-, rfl⟩ | ⟨program, opens, -⟩
  · cases contents <;> contradiction
  · exact provider_ne_of_opens opens

/-- Between the clipboard and the command a name is printed once, or not at all. -/
theorem printedAt_append_echo (config : Config) (path : String) (resolution : Resolution) :
    printedAt config.clipboard (some resolution.qualifiedName) ++
        echo config path (.resolved resolution) =
      if ShowsName config then onLine resolution.qualifiedName else "" := by
  by_cases chosen : config.clipboard.provider = "stdout" <;>
    by_cases asked : config.output.echoStatus = true <;>
      simp [printedAt, echo, ShowsName, chosen, asked]

/-! ## What is said -/

/-- An outcome that leaves the clipboard as it is. -/
theorem says_of_unchanged (path : String)
    (unchanged : outcome.contents? config.clipboard.clearOnUnresolved = none) :
    Says config clipboard (.ok outcome) (.printing (echo config path outcome)) where
  success := iff_of_true rfl ⟨outcome, rfl, by simp [Takes, unchanged]⟩
  failure failed := absurd rfl failed
  name := by
    rintro resolution ⟨⟩
    contradiction
  noName := by
    rintro ⟨⟩
    rfl

/-- An outcome that the clipboard takes. -/
theorem says_of_taken {contents : Contents} (path : String)
    (opened : config.clipboard.openClipboard surroundings = .ok clipboard)
    (change : outcome.contents? config.clipboard.clearOnUnresolved = some contents)
    (taken : (clipboard contents).1 = .ok ()) :
    Says config clipboard (.ok outcome)
      (Report.after (clipboard contents).2 (.printing (echo config path outcome))) where
  success := iff_of_true rfl ⟨outcome, rfl, by simp [Takes, change, taken]⟩
  failure failed := absurd rfl failed
  name := by
    rintro resolution ⟨⟩ -
    cases change
    exact (output_after_write opened _ _).trans (printedAt_append_echo config path resolution)
  noName := by
    rintro ⟨⟩
    obtain rfl : contents = none := by
      rw [Outcome.contents?] at change
      split at change <;> cases change
      rfl
    rw [output_after_write opened, printedAt]
    split <;> rfl

/-- An outcome that the clipboard refuses. -/
theorem says_of_refused {contents : Contents} {failure : Failure} {trouble : Trouble}
    (opened : config.clipboard.openClipboard surroundings = .ok clipboard)
    (change : outcome.contents? config.clipboard.clearOnUnresolved = some contents)
    (refused : (clipboard contents).1 = .error failure) :
    Says config clipboard (.ok outcome)
      (Report.after (clipboard contents).2 (.failing trouble)) := by
  have silent : (Report.after (clipboard contents).2 (.failing trouble)).output = "" := by
    rw [output_after_write opened, printedAt, if_neg (provider_ne_of_refused opened refused)]
    rfl
  refine ⟨iff_of_false Nat.one_ne_zero ?_, fun _ => silent, fun _ _ succeeded => ?_,
    fun _ => silent⟩
  · rintro ⟨other, ⟨⟩, taken⟩
    rw [taken contents change] at refused
    contradiction
  · exact absurd succeeded Nat.one_ne_zero

/-- Copying says what it is to say for a file of a known language, when a clipboard is opened. -/
theorem says_of_opened (known : (Language.ofPath? path).isSome = true)
    (opened : config.clipboard.openClipboard surroundings = .ok clipboard) :
    Says config clipboard (surroundings.resolvePath path caret)
      (copyWith surroundings config path caret) := by
  cases found : surroundings.resolvePath path caret with
  | error trouble =>
    rw [copyWith_of_error known opened found]
    exact ⟨by simp [Report.failing], fun _ => rfl, by simp, by simp⟩
  | ok outcome =>
    cases change : outcome.contents? config.clipboard.clearOnUnresolved with
    | none =>
      rw [copyWith_of_unchanged known opened found change]
      exact says_of_unchanged path change
    | some contents =>
      rw [copyWith_of_written known opened found change]
      cases taken : (clipboard contents).1 with
      | ok => exact says_of_taken path opened change taken
      | error failure => exact says_of_refused opened change taken

/-! ## A file of another language -/

/-- Looking for a name reports a file as one of another language if it is. -/
theorem resolvePath_eq_unsupported : surroundings.resolvePath path caret = .ok .unsupported ↔
    Language.ofPath? path = none :=
  @Copy.answer_eq_unsupported ⟨surroundings, path, caret, false⟩

/-- Listing types reports a file as one of another language if it is. -/
theorem listDeclarations_eq_none : surroundings.listDeclarations path = .ok none ↔
    Language.ofPath? path = none := by
  rw [Surroundings.listDeclarations]
  cases language : Language.ofPath? path with
  | none => exact iff_of_true rfl rfl
  | some found =>
    cases read : surroundings.source path <;> simp [Except.map]

/-- What copying comes to, if it does not fail, is what looking for the name comes to. -/
theorem resolvePath_of_copyName {clearOnUnresolved : Bool}
    (copied : (surroundings.copyName path caret clearOnUnresolved clipboard).1 = .ok outcome) :
    surroundings.resolvePath path caret = .ok outcome := by
  rw [Surroundings.copyName] at copied
  cases found : surroundings.resolvePath path caret with
  | error trouble =>
    rw [found] at copied
    contradiction
  | ok answer =>
    rw [found] at copied
    replace copied : (Surroundings.publish clearOnUnresolved clipboard answer).1 = .ok outcome :=
      copied
    rw [Surroundings.publish] at copied
    cases change : answer.contents? clearOnUnresolved with
    | none =>
      rw [change] at copied
      exact copied
    | some contents =>
      rw [change] at copied
      replace copied : withActivity contents.activity
          (((clipboard contents).1.mapError Trouble.failed).map fun () => answer) = .ok outcome :=
        copied
      cases taken : (clipboard contents).1 with
      | ok =>
        rw [taken] at copied
        exact copied
      | error failure =>
        rw [taken] at copied
        contradiction

/-- Copying reports a file as one of another language if it is. -/
theorem copyOutcome_eq_unsupported :
    (copyOutcome surroundings config path caret).1 = .ok .unsupported ↔
      Language.ofPath? path = none := by
  rw [copyOutcome]
  cases language : Language.ofPath? path with
  | none => exact iff_of_true rfl rfl
  | some found =>
    refine iff_of_false ?_ (Option.some_ne_none found)
    cases config.clipboard.openClipboard surroundings with
    | error failure => simp
    | ok clipboard =>
      intro copied
      rw [resolvePath_eq_unsupported.1 (resolvePath_of_copyName copied)] at language
      contradiction

/-- For a file of another language the three commands print the same line, and nothing of the
machine matters to them. -/
theorem reports_of_other (other : Language.ofPath? path = none) (surroundings : Surroundings)
    (config : Config) (caret : Option Caret) (json : Bool) :
    copyWith surroundings config path caret = .printing (onLine (Outcome.unsupportedStatus path)) ∧
    resolve surroundings path caret false = .printing (onLine (Outcome.unsupportedStatus path)) ∧
    resolve surroundings path caret true =
      .printing (onLine (outcomeJson path .unsupported).compact) ∧
    declarations surroundings path json =
      .printing (onLine (Outcome.unsupportedStatus path)) := by
  have copied : copyOutcome surroundings config path caret = (.ok .unsupported, []) := by
    rw [copyOutcome, other]
    rfl
  refine ⟨?_, ?_, ?_, ?_⟩
  · rw [copyWith, copied]
    exact Report.after_nil _
  · rw [resolve, resolvePath_eq_unsupported.2 other]
    rfl
  · rw [resolve, resolvePath_eq_unsupported.2 other]
    rfl
  · rw [declarations, listDeclarations_eq_none.2 other]

/-! ## Copying as a whole -/

/-- With a configuration that loads and can be used, copying says what it is to say for a file of
a known language where a clipboard is opened. It reports a file as one of another language exactly
if looking for names and listing types do, and then does so on every machine with that
configuration, one that refuses to read the file or has no programs as well. -/
theorem copy_prints (loads : Config.load surroundings configPath = .ok config)
    (valid : config.validate = .ok ()) (path : String) (caret : Option Caret) :
    (∀ clipboard, (Language.ofPath? path).isSome = true →
      config.clipboard.openClipboard surroundings = .ok clipboard →
      Says config clipboard (surroundings.resolvePath path caret)
        (copy surroundings path caret configPath)) ∧
    ((copyOutcome surroundings config path caret).1 = .ok .unsupported ↔
      surroundings.resolvePath path caret = .ok .unsupported) ∧
    ((copyOutcome surroundings config path caret).1 = .ok .unsupported ↔
      surroundings.listDeclarations path = .ok none) ∧
    ((copyOutcome surroundings config path caret).1 = .ok .unsupported →
      ∀ (machine : Surroundings) (source : Option String) (place : Option Caret) (json : Bool),
        Config.load machine source = .ok config →
        copy machine path place source = .printing (onLine (Outcome.unsupportedStatus path)) ∧
        resolve machine path place false =
          .printing (onLine (Outcome.unsupportedStatus path)) ∧
        resolve machine path place true =
          .printing (onLine (outcomeJson path .unsupported).compact) ∧
        declarations machine path json =
          .printing (onLine (Outcome.unsupportedStatus path))) := by
  rw [copyOutcome_eq_unsupported, resolvePath_eq_unsupported, listDeclarations_eq_none]
  refine ⟨fun clipboard known opened => ?_, Iff.rfl, Iff.rfl,
    fun other machine source place json sameLoads => ?_⟩
  · rw [copy_eq loads valid]
    exact says_of_opened known opened
  · rw [copy_eq sameLoads valid]
    exact reports_of_other other machine config place json

/-- A machine with a source, a program for the clipboard and no configuration. -/
def desk : Surroundings where
  read path := if path = "A.java" then .ok "class A {}".toUTF8 else .error .missing
  find? name := if name = "wl-copy" then some ("/bin/wl-copy", ⟨"wl-copy", 0, true⟩) else none
  start _ := .error .missing
  environment := []
  home := none

/-- The name of a class is copied by a program and printed by the command. -/
theorem copy_prints_desk :
    (copy desk "A.java" none (some "c.toml")).status = 0 ∧
    (copy desk "A.java" none (some "c.toml")).output = "A\n" := by
  have loads : Config.load desk (some "c.toml") = .ok {} := by decide +kernel
  have known : (Language.ofPath? "A.java").isSome = true := by
    rw [Language.ofPath?, extension?, fileName?, pathComponents, Config.splitOn_slash]
    decide +kernel
  have opens : ClipboardConfig.Opens {} desk
      ⟨"/bin/wl-copy", .ok ⟨"wl-copy", 0, true⟩, [], some ["--clear"]⟩ :=
    .first rfl (List.nil_append _).symm (by simp) rfl
  have source : desk.source "A.java" = .ok "class A {}" :=
    @Copy.source_of_text ⟨desk, "A.java", none, false⟩ _ _ rfl (by decide +kernel)
  have resolved : (SourceFile.ofSource "class A {}").resolve "A.java" none =
      .ok (some ⟨"A", .file⟩) := by
    decide +kernel
  have found : desk.resolvePath "A.java" none = .ok (.resolved ⟨"A", .file⟩) := by
    refine (@Copy.answer_of_known ⟨desk, "A.java", none, false⟩ known).trans ?_
    rw [source]
    show (withActivity ("Failed to analyze " ++ "A.java")
      (((SourceFile.ofSource "class A {}").resolve "A.java" none).mapError Trouble.failed)).bind
        (fun resolution => .ok (Outcome.ofResolution resolution)) = _
    rw [resolved]
    rfl
  have report := (copy_prints loads rfl "A.java" none).1 _ known opens.openClipboard_eq
  have succeeds : (copy desk "A.java" none (some "c.toml")).status = 0 := by
    refine report.success.2 ⟨_, found, ?_⟩
    rintro contents ⟨⟩
    rfl
  exact ⟨succeeds, report.name _ found succeeds⟩

end CommandLine

end CaretName
