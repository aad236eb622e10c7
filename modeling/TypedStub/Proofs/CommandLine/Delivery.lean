import TypedStub.Proofs.CommandLine.Files

/-! What a session leaves in the files, whether it succeeds or fails.

A session first makes the text of the stub, which changes no file, and then delivers it. So a session that has no
text to deliver leaves the files alone, and one that has written the text leaves it to the formatter.
-/

set_option autoImplicit false

namespace TypedStub.CommandLine

/-! ### Making the text -/

def moduleFile (arguments : Arguments) (settings : Settings) : String :=
  Registry.fileOf (arguments.registry.getD settings.registry) arguments.moduleName

/-- The ways in which a session ends without a text to deliver. -/
inductive Stuck (files : FileSystem) (arguments : Arguments) : Prop where
  | noFile : arguments.format = true → arguments.out = standardOutput → Stuck files arguments
  | noSettings : (∀ settings, ¬ HasSettings files arguments.settings settings) → Stuck files arguments
  | unreadable {settings : Settings} : HasSettings files arguments.settings settings →
      files.readText (moduleFile arguments settings) = none → Stuck files arguments
  | malformed {settings : Settings} {text : String} : HasSettings files arguments.settings settings →
      files.readText (moduleFile arguments settings) = some text → Module.parse? text = none → Stuck files arguments
  | otherModule {settings : Settings} {text : String} {mod : Module} :
      HasSettings files arguments.settings settings → files.readText (moduleFile arguments settings) = some text →
      Module.parse? text = some mod → mod.name ≠ arguments.moduleName → Stuck files arguments
  | noOutline {settings : Settings} {text : String} {mod : Module} {failure : OutlineFailure} :
      HasSettings files arguments.settings settings → files.readText (moduleFile arguments settings) = some text →
      Module.parse? text = some mod → mod.name = arguments.moduleName → settings.generate mod = .error failure →
      Stuck files arguments

structure Generates (files : FileSystem) (arguments : Arguments) (settings : Settings) (generated : Generated) :
    Prop where
  formattable : ¬ (arguments.format = true ∧ arguments.out = standardOutput)
  hasSettings : HasSettings files arguments.settings settings
  isGenerated : ∃ text mod, files.readText (moduleFile arguments settings) = some text ∧
    Module.parse? text = some mod ∧ mod.name = arguments.moduleName ∧ settings.generate mod = .ok generated

/-! ### Delivering it -/

/-- What becomes of a file that is to be formatted: the exit code, and the files in the end. -/
inductive Formats (programs : Programs) (out : String) (written : FileSystem) : List String → Nat → FileSystem → Prop where
  | noCommand : Formats programs out written [] 1 written
  | failed {program : String} {args : List String} {status : CommandStatus} {after : FileSystem} :
      programs program (args ++ [out]) written = (status, after) → status ≠ .exited 0 →
      Formats programs out written (program :: args) 1 after
  | done {program : String} {args : List String} {after : FileSystem} :
      programs program (args ++ [out]) written = (.exited 0, after) →
      Formats programs out written (program :: args) 0 after

section
variable {programs : Programs} {arguments : Arguments} {files : FileSystem} {settings : Settings}
  {generated : Generated}

theorem Generates.unique {otherSettings : Settings} {other : Generated}
    (generates : Generates files arguments settings generated)
    (generatesOther : Generates files arguments otherSettings other) : settings = otherSettings ∧ generated = other := by
  obtain rfl := generates.hasSettings.unique generatesOther.hasSettings
  obtain ⟨text, mod, read, parsed, -, isGenerated⟩ := generates.isGenerated
  obtain ⟨_, _, readOther, parsedOther, -, isOther⟩ := generatesOther.isGenerated
  obtain rfl := module_unique read parsed readOther parsedOther
  rw [isGenerated] at isOther
  cases isOther
  exact ⟨rfl, rfl⟩

theorem Generates.not_stuck (generates : Generates files arguments settings generated) : ¬ Stuck files arguments := by
  obtain ⟨possible, has, text, mod, read, parsed, named, ran⟩ := generates
  intro stuck
  cases stuck with
  | noFile formats shown => exact possible ⟨formats, shown⟩
  | noSettings lacks => exact lacks _ has
  | unreadable hasOther unread =>
    obtain rfl := has.unique hasOther
    simp [read] at unread
  | malformed hasOther readOther malformed =>
    obtain rfl := has.unique hasOther
    rw [read] at readOther
    cases readOther
    simp [parsed] at malformed
  | otherModule hasOther readOther parsedOther differs =>
    obtain rfl := has.unique hasOther
    obtain rfl := module_unique read parsed readOther parsedOther
    exact differs named
  | noOutline hasOther readOther parsedOther _ failed =>
    obtain rfl := has.unique hasOther
    obtain rfl := module_unique read parsed readOther parsedOther
    rw [ran] at failed
    cases failed

theorem generates_or_stuck (files : FileSystem) (arguments : Arguments) :
    (∃ settings generated, Generates files arguments settings generated) ∨ Stuck files arguments := by
  -- The stages in their order: each of them leaves the session stuck or leads to the next.
  by_cases impossible : arguments.format = true ∧ arguments.out = standardOutput
  · exact .inr (.noFile impossible.1 impossible.2)
  by_cases configured : ∃ settings, HasSettings files arguments.settings settings
  · obtain ⟨settings, has⟩ := configured
    cases read : files.readText (moduleFile arguments settings) with
    | none => exact .inr (.unreadable has read)
    | some text =>
      cases parsed : Module.parse? text with
      | none => exact .inr (.malformed has read parsed)
      | some mod =>
        by_cases named : mod.name = arguments.moduleName
        · cases ran : settings.generate mod with
          | error failure => exact .inr (.noOutline has read parsed named ran)
          | ok generated => exact .inl ⟨settings, generated, impossible, has, text, mod, read, parsed, named, ran⟩
        · exact .inr (.otherModule has read parsed named)
  · exact .inr (.noSettings (not_exists.1 configured))

/-! ### Sessions -/

theorem session_eq_steps (programs : Programs)
    (possible : ¬ (arguments.format = true ∧ arguments.out = standardOutput)) :
    session (FileSystem.host programs) arguments =
      loadSettings (FileSystem.host programs) arguments.settings >>= fun settings =>
        loadModule (FileSystem.host programs) (arguments.registry.getD settings.registry) arguments.moduleName
          >>= fun mod => ExceptT.mk (pure ((settings.generate mod).mapError Failure.outline)) >>= fun generated =>
            deliver (FileSystem.host programs) arguments settings generated.text >>= fun report =>
              pure { report with messages :=
                report.messages ++ warningMessages arguments.moduleName generated.warnings.length } := by
  unfold session
  rw [if_neg possible]

theorem session_of_hasSettings (possible : ¬ (arguments.format = true ∧ arguments.out = standardOutput))
    (has : HasSettings files arguments.settings settings) :
    session (FileSystem.host programs) arguments files =
      match files.readText (moduleFile arguments settings) with
      | none => (.error (.registry arguments.moduleName .unreadable), files)
      | some text =>
        match Registry.parse arguments.moduleName text with
        | .error fault => (.error (.registry arguments.moduleName fault), files)
        | .ok mod =>
          match settings.generate mod with
          | .error failure => (.error (.outline failure), files)
          | .ok generated =>
            match deliver (FileSystem.host programs) arguments settings generated.text files with
            | (.error failure, after) => (.error failure, after)
            | (.ok report, after) =>
              (.ok { report with messages :=
                report.messages ++ warningMessages arguments.moduleName generated.warnings.length }, after) := by
  rw [session_eq_steps programs possible, run_bind, loadSettings_of_hasSettings has]
  dsimp only
  rw [run_bind, loadModule_eq, ← moduleFile]
  cases files.readText (moduleFile arguments settings) with
  | none => rfl
  | some text =>
    dsimp only
    cases Registry.parse arguments.moduleName text with
    | error fault => rfl
    | ok mod =>
      dsimp only [Except.mapError]
      rw [run_bind]
      cases settings.generate mod with
      | error failure => rfl
      | ok generated =>
        refine (run_bind ..).trans ?_
        dsimp only
        rcases deliver (FileSystem.host programs) arguments settings generated.text files with ⟨_ | _, after⟩ <;> rfl

theorem session_of_stuck (stuck : Stuck files arguments) :
    ∃ failure, session (FileSystem.host programs) arguments files = (.error failure, files) := by
  -- The arguments are looked at first, so that no other fault is told of them when they exclude each other.
  by_cases impossible : arguments.format = true ∧ arguments.out = standardOutput
  · unfold session
    rw [if_pos impossible]
    exact ⟨.formatWithoutFile, rfl⟩
  cases stuck with
  | noFile formats shown => exact absurd ⟨formats, shown⟩ impossible
  | noSettings lacks =>
    obtain ⟨failure, loaded⟩ := @loadSettings_of_not_hasSettings programs files _ lacks
    refine ⟨failure, ?_⟩
    rw [session_eq_steps programs impossible, run_bind, loaded]
  | unreadable has read =>
    rw [session_of_hasSettings impossible has, read]
    exact ⟨_, rfl⟩
  | malformed has read parsed =>
    simp only [session_of_hasSettings impossible has, read, Registry.parse, parsed]
    exact ⟨_, rfl⟩
  | otherModule has read parsed named =>
    simp only [session_of_hasSettings impossible has, read, Registry.parse, parsed, if_neg named]
    exact ⟨_, rfl⟩
  | noOutline has read parsed named ran =>
    simp only [session_of_hasSettings impossible has, read, Registry.parse, parsed, if_pos named, ran]
    exact ⟨_, rfl⟩

theorem session_of_generates (generates : Generates files arguments settings generated) :
    session (FileSystem.host programs) arguments files =
      match deliver (FileSystem.host programs) arguments settings generated.text files with
      | (.error failure, after) => (.error failure, after)
      | (.ok report, after) =>
        (.ok { report with messages :=
          report.messages ++ warningMessages arguments.moduleName generated.warnings.length }, after) := by
  obtain ⟨possible, has, text, mod, read, parsed, named, ran⟩ := generates
  simp only [session_of_hasSettings possible has, read, Registry.parse, parsed, if_pos named, ran]

/-! ### Delivery -/

theorem formatter_run_eq (programs : Programs) (formatter : Formatter) (out : String) (written : FileSystem) :
    formatter.run (FileSystem.host programs) out written =
      let ended := programs formatter.program (formatter.args ++ [out]) written
      (if ended.1 = .exited 0 then .ok () else .error ⟨formatter.commandLine, ended.1⟩, ended.2) := by
  simp only [Formatter.run, FileSystem.host, bind, StateT.bind]
  rcases programs formatter.program (formatter.args ++ [out]) written with ⟨_ | _ | _, after⟩
  · rename_i code
    cases code <;> rfl
  · rfl
  · rfl

theorem formatStub_cases (command : List String) (out : String) (written : FileSystem) :
    (∃ after, formatStub (FileSystem.host programs) command out written = (.ok (), after) ∧
      Formats programs out written command 0 after) ∨
    ∃ failure after, formatStub (FileSystem.host programs) command out written = (.error failure, after) ∧
      Formats programs out written command 1 after := by
  cases command with
  | nil => exact .inr ⟨.noFormatter, written, rfl, .noCommand⟩
  | cons program args =>
    have ended : formatStub (FileSystem.host programs) (program :: args) out written =
        let formatted := Formatter.run (FileSystem.host programs) ⟨program, args⟩ out written
        (formatted.1.mapError .formatter, formatted.2) := rfl
    rw [ended, formatter_run_eq]
    dsimp only
    rcases ran : programs program (args ++ [out]) written with ⟨status, after⟩
    by_cases fine : status = .exited 0
    · subst fine
      exact .inl ⟨after, rfl, .done ran⟩
    · rw [if_neg fine]
      exact .inr ⟨_, after, rfl, .failed ran fine⟩

/-- How a session can end: the exit code, what it shows, and the files in the end. -/
inductive Ends (programs : Programs) (files : FileSystem) (arguments : Arguments) : Nat → String → FileSystem → Prop where
  | stuck : Stuck files arguments → Ends programs files arguments 1 "" files
  | shown {settings : Settings} {generated : Generated} : Generates files arguments settings generated →
      arguments.out = standardOutput → Ends programs files arguments 0 generated.text files
  | notWritten {settings : Settings} {generated : Generated} : Generates files arguments settings generated →
      arguments.out ≠ standardOutput → files.writeText? arguments.out generated.text = none →
      Ends programs files arguments 1 "" files
  | unformatted {settings : Settings} {generated : Generated} {written : FileSystem} :
      Generates files arguments settings generated → arguments.out ≠ standardOutput →
      files.writeText? arguments.out generated.text = some written → arguments.format = false →
      Ends programs files arguments 0 "" written
  | formatted {settings : Settings} {generated : Generated} {written after : FileSystem} {code : Nat} :
      Generates files arguments settings generated → arguments.out ≠ standardOutput →
      files.writeText? arguments.out generated.text = some written → arguments.format = true →
      Formats programs arguments.out written settings.formatter code after →
      Ends programs files arguments code "" after

theorem writeStub_eq (programs : Programs) (out text : String) (files : FileSystem) :
    writeStub (FileSystem.host programs) out text files =
      match files.writeText? out text with
      | none => (.error (.output out), files)
      | some written => (.ok (), written) := by
  simp only [writeStub, FileSystem.host, ExceptT.mk, bind, StateT.bind]
  cases files.writeText? out text <;> rfl

theorem deliver_eq (programs : Programs) (arguments : Arguments) (settings : Settings) (text : String)
    (files : FileSystem) :
    deliver (FileSystem.host programs) arguments settings text files =
      if arguments.out = standardOutput then (.ok ⟨0, text, []⟩, files)
      else
        match files.writeText? arguments.out text with
        | none => (.error (.output arguments.out), files)
        | some written =>
          if arguments.format = true then
            match formatStub (FileSystem.host programs) settings.formatter arguments.out written with
            | (.error failure, after) => (.error failure, after)
            | (.ok _, after) => (.ok ⟨0, "", ["Wrote " ++ arguments.out]⟩, after)
          else (.ok ⟨0, "", ["Wrote " ++ arguments.out]⟩, written) := by
  by_cases shown : arguments.out = standardOutput
  · unfold deliver
    rw [if_pos shown, if_pos shown]
    rfl
  rw [if_neg shown]
  have steps : deliver (FileSystem.host programs) arguments settings text =
      writeStub (FileSystem.host programs) arguments.out text >>= fun _ =>
        if arguments.format = true then
          formatStub (FileSystem.host programs) settings.formatter arguments.out >>= fun _ =>
            pure ⟨0, "", ["Wrote " ++ arguments.out]⟩
        else pure ⟨0, "", ["Wrote " ++ arguments.out]⟩ := by
    unfold deliver
    rw [if_neg shown]
  rw [steps, run_bind, writeStub_eq]
  cases files.writeText? arguments.out text with
  | none => rfl
  | some written =>
    dsimp only
    split
    · rw [run_bind]
      rcases formatStub (FileSystem.host programs) settings.formatter arguments.out written with ⟨_ | _, after⟩ <;> rfl
    · rfl

theorem run_eq (programs : Programs) (arguments : Arguments) (files : FileSystem) :
    run (FileSystem.host programs) arguments files =
      match session (FileSystem.host programs) arguments files with
      | (.ok report, after) => (report, after)
      | (.error failure, after) => (⟨1, "", ["Error: " ++ failure.message]⟩, after) := by
  simp only [run, bind, StateT.bind, ExceptT.run]
  rcases session (FileSystem.host programs) arguments files with ⟨_ | _, after⟩ <;> rfl

theorem run_ends (programs : Programs) (arguments : Arguments) (files : FileSystem) :
    let ended := run (FileSystem.host programs) arguments files
    Ends programs files arguments ended.1.code ended.1.output ended.2 := by
  dsimp only
  rw [run_eq]
  -- Either there is no text to deliver, or the delivery decides how the run ends.
  rcases generates_or_stuck files arguments with ⟨settings, generated, generates⟩ | stuck
  · rw [session_of_generates generates, deliver_eq]
    by_cases shown : arguments.out = standardOutput
    · rw [if_pos shown]
      exact .shown generates shown
    rw [if_neg shown]
    cases wrote : files.writeText? arguments.out generated.text with
    | none => exact .notWritten generates shown wrote
    | some written =>
      dsimp only
      by_cases formats : arguments.format = true
      · rw [if_pos formats]
        obtain ⟨after, ran, formatted⟩ | ⟨failure, after, ran, formatted⟩ :=
          @formatStub_cases programs settings.formatter arguments.out written
        · rw [ran]
          exact .formatted generates shown wrote formats formatted
        · rw [ran]
          exact .formatted generates shown wrote formats formatted
      · rw [if_neg formats]
        exact .unformatted generates shown wrote (by simpa using formats)
  · obtain ⟨failure, ran⟩ := @session_of_stuck programs arguments files stuck
    rw [ran]
    exact .stuck stuck

theorem Formats.outcome {program out : String} {args : List String} {written after : FileSystem} {code : Nat}
    (formats : Formats programs out written (program :: args) code after) :
    let ended := programs program (args ++ [out]) written
    code = (if ended.1 = .exited 0 then 0 else 1) ∧ after = ended.2 := by
  cases formats with
  | failed ran fails => simp only [ran, if_neg fails, and_self]
  | done ran => simp only [ran, if_true, and_self]

theorem Formats.unique {out : String} {written after other : FileSystem} {command : List String} {code otherCode : Nat}
    (formats : Formats programs out written command code after)
    (formatsOther : Formats programs out written command otherCode other) : code = otherCode ∧ after = other := by
  cases command with
  | nil =>
    cases formats
    cases formatsOther
    exact ⟨rfl, rfl⟩
  | cons program args =>
    exact ⟨formats.outcome.1.trans formatsOther.outcome.1.symm, formats.outcome.2.trans formatsOther.outcome.2.symm⟩

namespace Ends

variable {code : Nat} {output : String} {after : FileSystem}

theorem of_stuck (ends : Ends programs files arguments code output after) (stuck : Stuck files arguments) :
    code = 1 ∧ output = "" ∧ after = files := by
  cases ends with
  | stuck => exact ⟨rfl, rfl, rfl⟩
  | shown generates | notWritten generates | unformatted generates | formatted generates =>
    exact absurd stuck generates.not_stuck

theorem of_generates (ends : Ends programs files arguments code output after)
    (generates : Generates files arguments settings generated) :
    if arguments.out = standardOutput then code = 0 ∧ output = generated.text ∧ after = files
    else output = "" ∧
      match files.writeText? arguments.out generated.text with
      | none => code = 1
      | some written =>
        if arguments.format = true then Formats programs arguments.out written settings.formatter code after
        else code = 0 ∧ after = written := by
  cases ends with
  | stuck stuck => exact absurd stuck generates.not_stuck
  | shown others shown =>
    obtain ⟨rfl, rfl⟩ := generates.unique others
    rw [if_pos shown]
    exact ⟨rfl, rfl, rfl⟩
  | notWritten others shown wrote =>
    obtain ⟨rfl, rfl⟩ := generates.unique others
    rw [if_neg shown, wrote]
    exact ⟨rfl, rfl⟩
  | unformatted others shown wrote plain =>
    obtain ⟨rfl, rfl⟩ := generates.unique others
    rw [if_neg shown, wrote]
    simp [plain]
  | formatted others shown wrote formats formatted =>
    obtain ⟨rfl, rfl⟩ := generates.unique others
    rw [if_neg shown, wrote]
    simpa [formats] using formatted

/-- The warnings about a stub do not count for success. -/
theorem succeeds_iff (ends : Ends programs files arguments code output after) :
    code = 0 ↔ ∃ settings text warnings, Generates files arguments settings ⟨text, warnings⟩ ∧
      (arguments.out = standardOutput ∨ ∃ written, files.writeText? arguments.out text = some written ∧
        (arguments.format = true →
          ∃ formatted, Formats programs arguments.out written settings.formatter 0 formatted)) := by
  constructor
  · intro succeeds
    cases ends with
    | stuck | notWritten => cases succeeds
    | @shown settings generated generates shown =>
      exact ⟨settings, generated.text, generated.warnings, generates, .inl shown⟩
    | @unformatted settings generated _ generates _ wrote plain =>
      refine ⟨settings, generated.text, generated.warnings, generates, .inr ⟨after, wrote, ?_⟩⟩
      simp [plain]
    | @formatted settings generated written _ _ generates _ wrote _ formatted =>
      subst succeeds
      exact ⟨settings, generated.text, generated.warnings, generates, .inr ⟨written, wrote, fun _ => ⟨after, formatted⟩⟩⟩
  · rintro ⟨settings, text, warnings, generates, delivered⟩
    have outcome := ends.of_generates generates
    by_cases shown : arguments.out = standardOutput
    · rw [if_pos shown] at outcome
      exact outcome.1
    · obtain ⟨written, wrote, formatted⟩ := delivered.resolve_left shown
      rw [if_neg shown, wrote] at outcome
      by_cases formats : arguments.format = true
      · simp only [formats, if_true] at outcome
        obtain ⟨after, isFormatted⟩ := formatted formats
        exact (outcome.2.unique isFormatted).1
      · simp only [formats] at outcome
        exact outcome.2.1

end Ends

/-- A session that cannot generate a stub fails, shows nothing and leaves all files as they are. One that generates a
stub either shows it or leaves it in the output file, where only the formatter may change it afterwards. Whether a
session succeeds depends on the text of the stub and not on the warnings about it. -/
theorem output_survives_failure (programs : Programs) (arguments : Arguments) (files : FileSystem) :
    let report := (run (FileSystem.host programs) arguments files).1
    let after := (run (FileSystem.host programs) arguments files).2
    (Stuck files arguments → report.code = 1 ∧ report.output = "" ∧ after = files) ∧
    (∀ settings generated, Generates files arguments settings generated →
      (∀ written, arguments.format = true → files.writeText? arguments.out generated.text = some written →
        report.output = "" ∧ written.readText arguments.out = some generated.text ∧
          Formats programs arguments.out written settings.formatter report.code after) ∧
      (arguments.format = false → report.code = 0 →
        if arguments.out = standardOutput then report.output = generated.text ∧ after = files
        else report.output = "" ∧ after.readText arguments.out = some generated.text)) ∧
    (report.code = 0 ↔ ∃ settings text warnings, Generates files arguments settings ⟨text, warnings⟩ ∧
      (arguments.out = standardOutput ∨ ∃ written, files.writeText? arguments.out text = some written ∧
        (arguments.format = true → ∃ formatted, Formats programs arguments.out written settings.formatter 0 formatted))) := by
  have ends := run_ends programs arguments files
  dsimp only at ends ⊢
  generalize (run (FileSystem.host programs) arguments files).1.code = code at *
  generalize (run (FileSystem.host programs) arguments files).1.output = output at *
  generalize (run (FileSystem.host programs) arguments files).2 = after at *
  refine ⟨ends.of_stuck, fun settings generated generates => ?_, ends.succeeds_iff⟩
  have outcome := ends.of_generates generates
  refine ⟨fun written formats wrote => ?_, fun plain succeeded => ?_⟩
  · -- A stub that is to be formatted is not shown, so it was written before the formatter ran.
    have isFile : arguments.out ≠ standardOutput := fun shown => generates.formattable ⟨formats, shown⟩
    rw [if_neg isFile, wrote] at outcome
    simp only [formats, if_true] at outcome
    exact ⟨outcome.1, FileSystem.readText_of_writeText? wrote, outcome.2⟩
  · split
    · rename_i shown
      rw [if_pos shown] at outcome
      exact outcome.2
    · rename_i isFile
      rw [if_neg isFile] at outcome
      cases wrote : files.writeText? arguments.out generated.text with
      | none => simp [wrote, succeeded] at outcome
      | some written =>
        simp only [wrote, plain] at outcome
        obtain ⟨silent, -, rfl⟩ := outcome
        exact ⟨silent, FileSystem.readText_of_writeText? wrote⟩

end

def packageFiles : FileSystem := ⟨.ofList [("pkg.json", .text "\x7b\"name\": \"pkg\"\x7d")], []⟩

-- A formatter that fails finds the stub and leaves it.
example :
    let ended := run (FileSystem.host fun _ _ files => (.exited 1, files))
      { moduleName := "pkg", out := "pkg.pyi", format := true, registry := some "." } packageFiles
    ended.1.code = 1 ∧ ended.1.output = "" ∧
      ended.2.readText "pkg.pyi" = some "from __future__ import annotations\nimport typing\n" := by
  decide +kernel

end TypedStub.CommandLine
