import TwoPass.Proofs.FileMaps
import TwoPass.Tool

/-!
What a run of the tool does to files, on any host whose writes take the place of a whole file or
fail without effect. A run writes at most once, after everything that can fail before it.
-/

namespace TwoPass

variable {State Location : Type}

inductive Config.Loads (read : Reader) : Option String → Config → Prop where
  | standard : Loads read none {}
  | file {path text : String} {config : Config} (found : read path = .ok text)
      (valid : Config.ofText? text = some config) : Loads read (some path) config

theorem Config.load_eq_ok_iff (read : Reader) (path : String) (config : Config) :
    load read path = .ok config ↔ Loads read (some path) config := by
  unfold load
  constructor
  · intro loaded
    cases found : read path with
    | error cause => simp [found] at loaded
    | ok text =>
        cases valid : ofText? text with
        | none => simp [found, valid] at loaded
        | some other =>
            simp only [found, valid, Except.ok.injEq] at loaded
            subst other
            exact .file found valid
  · intro loads
    cases loads with
    | file found valid => simp only [found, valid]

namespace Options

/-- What there is to report before anything is printed or written: the configuration in force, with
the memory size of the command line over that of the file, and the program. -/
structure Prepares (options : Options) (read : Reader) (config : Config) (program : Program) :
    Prop where
  configured : ∃ base, Config.Loads read options.config base ∧
    config = { base with memoryWords := options.memoryWords.getD base.memoryWords }
  assembled : ∃ source, read options.input = .ok source ∧
    (⟨config, .ok⟩ : Assembler).assemble source = .ok program

theorem loadConfig_eq_ok_iff (options : Options) (read : Reader) (config : Config) :
    options.loadConfig read = .ok config ↔
      ∃ base, Config.Loads read options.config base ∧
        config = { base with memoryWords := options.memoryWords.getD base.memoryWords } := by
  unfold loadConfig
  cases options.config with
  | none =>
      constructor
      · intro loaded
        exact ⟨{}, .standard, (Except.ok.inj loaded).symm⟩
      · rintro ⟨base, ⟨⟩, rfl⟩
        rfl
  | some path =>
      constructor
      · intro loaded
        obtain ⟨base, found, same⟩ := Result.exists_of_bind_eq_ok loaded
        exact ⟨base, (Config.load_eq_ok_iff read path base).mp found, (Except.ok.inj same).symm⟩
      · rintro ⟨base, loads, rfl⟩
        simp only [(Config.load_eq_ok_iff read path base).mpr loads]
        rfl

theorem Prepares.unique {options : Options} {read : Reader} {config other : Config}
    {program otherProgram : Program} (prepares : options.Prepares read config program)
    (otherwise : options.Prepares read other otherProgram) :
    config = other ∧ program = otherProgram := by
  have same : config = other := by
    have loaded := (loadConfig_eq_ok_iff options read config).mpr prepares.configured
    have again := (loadConfig_eq_ok_iff options read other).mpr otherwise.configured
    exact Except.ok.inj (loaded.symm.trans again)
  subst other
  obtain ⟨source, found, assembled⟩ := prepares.assembled
  obtain ⟨otherSource, otherFound, otherAssembled⟩ := otherwise.assembled
  obtain rfl : source = otherSource := Except.ok.inj (found.symm.trans otherFound)
  exact ⟨rfl, Except.ok.inj (assembled.symm.trans otherAssembled)⟩

theorem plan_eq_ok_iff (options : Options) (read : Reader) (action : Action) :
    options.plan read = .ok action ↔
      ∃ config program, options.Prepares read config program ∧
        options.report config program = .ok action := by
  unfold plan
  constructor
  · intro planned
    obtain ⟨config, configured, planned⟩ := Result.exists_of_bind_eq_ok planned
    obtain ⟨source, found, planned⟩ := Result.exists_of_bind_eq_ok planned
    obtain ⟨program, assembled, reported⟩ := Result.exists_of_bind_eq_ok planned
    rw [loadConfig_eq_ok_iff] at configured
    rw [loadSource, Result.mapError_eq_ok_iff] at found
    rw [assemble, Result.mapError_eq_ok_iff] at assembled
    exact ⟨config, program, ⟨configured, source, found, assembled⟩, reported⟩
  · rintro ⟨config, program, ⟨configured, source, found, assembled⟩, reported⟩
    rw [← loadConfig_eq_ok_iff] at configured
    have loaded : options.loadSource read = .ok source := Result.mapError_eq_ok_iff.mpr found
    have accepted : assemble config source = .ok program := Result.mapError_eq_ok_iff.mpr assembled
    rw [configured, loaded]
    change assemble config source >>= options.report config = .ok action
    rw [accepted]
    exact reported

def listing (options : Options) (program : Program) : String :=
  match options.format with
  | .text => Program.listing program.instructions
  | .json => program.jsonListing ++ "\n"

theorem report_of_noOutput {options : Options} (noOutput : options.output = none) (config : Config)
    (program : Program) :
    options.report config program = .ok (.print (options.listing program)) := by
  unfold report listing
  cases format : options.format <;> simp [noOutput]

theorem report_of_output {options : Options} {path : String} (output : options.output = some path)
    (config : Config) (program : Program) :
    options.report config program =
      ((MemoryImage.render config program.instructions).mapError .assembly).map
        fun image => .save path image (saveNote program path) := by
  unfold report
  simp only [output]
  cases MemoryImage.render config program.instructions <;> rfl

inductive Ends (host : Host State) (options : Options) (before : State) :
    Outcome → State → Prop where
  | refused {error : ToolError} (planned : options.plan (host.read before) = .error error) :
      Ends host options before (.failure (error.message host.explain)) before
  | printed {config : Config} {program : Program}
      (prepares : options.Prepares (host.read before) config program)
      (noOutput : options.output = none) :
      Ends host options before (.success (options.listing program)) before
  | unwritten {config : Config} {program : Program} {path image : String} {cause : FileError}
      {after : State} (prepares : options.Prepares (host.read before) config program)
      (output : options.output = some path)
      (rendered : MemoryImage.render config program.instructions = .ok image)
      (failed : host.write before path image = (.error cause, after)) :
      Ends host options before (.failure ("writing " ++ path ++ ": " ++ cause.message)) after
  | saved {config : Config} {program : Program} {path image : String} {echo : Echo} {after : State}
      (prepares : options.Prepares (host.read before) config program)
      (output : options.output = some path)
      (rendered : MemoryImage.render config program.instructions = .ok image)
      (success : host.write before path image = (.ok echo, after)) :
      Ends host options before ⟨0, echo.output ++ saveNote program path, echo.errors⟩ after

theorem run_ends (host : Host State) (options : Options) (files : State) :
    options.Ends host files (options.run host files).1 (options.run host files).2 := by
  unfold run
  cases planned : options.plan (host.read files) with
  | error error => exact .refused planned
  | ok action =>
      obtain ⟨config, program, prepares, reported⟩ :=
        (plan_eq_ok_iff options (host.read files) action).mp planned
      cases output : options.output with
      | none =>
          rw [report_of_noOutput output, Except.ok.injEq] at reported
          subst action
          exact .printed prepares output
      | some path =>
          rw [report_of_output output, Result.map_eq_ok_iff] at reported
          obtain ⟨image, rendered, rfl⟩ := reported
          rw [Result.mapError_eq_ok_iff] at rendered
          simp only [Action.perform]
          cases wrote : host.write files path image with
          | mk result after =>
              cases result with
              | error cause => exact .unwritten prepares output rendered wrote
              | ok echo => exact .saved prepares output rendered wrote

/-- Everything a run needs is there: what it reads, a source that is a program, and with an output
path a program that fits and a file that takes its image. -/
def Succeeds (host : Host State) (options : Options) (files : State) : Prop :=
  ∃ config program, options.Prepares (host.read files) config program ∧
    ∀ path, options.output = some path →
      ∃ image echo after, MemoryImage.render config program.instructions = .ok image ∧
        host.write files path image = (.ok echo, after)

section

variable {host : Host State} {options : Options} {before after : State} {outcome : Outcome}

theorem exists_plan_of_succeeds (succeeds : options.Succeeds host before) :
    ∃ action, options.plan (host.read before) = .ok action := by
  obtain ⟨config, program, prepares, fits⟩ := succeeds
  suffices reported : ∃ action, options.report config program = .ok action by
    obtain ⟨action, reported⟩ := reported
    exact ⟨action, (plan_eq_ok_iff ..).mpr ⟨config, program, prepares, reported⟩⟩
  cases output : options.output with
  | none => exact ⟨_, report_of_noOutput output config program⟩
  | some path =>
      obtain ⟨image, _, _, rendered, _⟩ := fits path output
      rw [report_of_output output, rendered]
      exact ⟨_, rfl⟩

theorem Ends.exitCode_eq_zero_iff (ends : options.Ends host before outcome after) :
    outcome.exitCode = 0 ↔ options.Succeeds host before := by
  cases ends with
  | refused planned =>
      refine iff_of_false Nat.one_ne_zero fun succeeds => ?_
      obtain ⟨action, ended⟩ := exists_plan_of_succeeds succeeds
      rw [planned] at ended
      simp at ended
  | @printed config program prepares noOutput =>
      refine iff_of_true rfl ⟨config, program, prepares, fun path output => ?_⟩
      simp [noOutput] at output
  | @unwritten config program path image cause _ prepares output rendered failed =>
      refine iff_of_false Nat.one_ne_zero fun ⟨otherConfig, otherProgram, otherwise, fits⟩ => ?_
      obtain ⟨other, echo, after, otherRendered, success⟩ := fits path output
      obtain ⟨rfl, rfl⟩ := prepares.unique otherwise
      obtain rfl : image = other := Except.ok.inj (rendered.symm.trans otherRendered)
      rw [failed] at success
      simp at success
  | @saved config program path image echo _ prepares output rendered success =>
      refine iff_of_true rfl ⟨config, program, prepares, fun other same => ?_⟩
      obtain rfl : path = other := Option.some.inj (output.symm.trans same)
      exact ⟨image, echo, _, rendered, success⟩

variable {map : FileMap State Location} (whole : host.WritesWhole map before)

include whole

theorem Ends.unchanged (ends : options.Ends host before outcome after)
    (idle : outcome.exitCode ≠ 0 ∨ options.output = none) : map.Unchanged before after := by
  cases ends with
  | refused planned => exact map.unchanged_refl before
  | printed prepares noOutput => exact map.unchanged_refl before
  | unwritten prepares output rendered failed => exact whole.fails _ _ _ _ failed
  | saved prepares output rendered success => simp [output] at idle

theorem Ends.replaced {path : String} (ends : options.Ends host before outcome after)
    (success : outcome.exitCode = 0) (output : options.output = some path) :
    ∃ config program image, options.Prepares (host.read before) config program ∧
      MemoryImage.render config program.instructions = .ok image ∧
      map.Replaced before path image after := by
  cases ends with
  | refused planned => exact absurd success Nat.one_ne_zero
  | printed prepares noOutput => simp [noOutput] at output
  | unwritten prepares given rendered failed => exact absurd success Nat.one_ne_zero
  | @saved config program other image echo _ prepares given rendered wrote =>
      obtain rfl : other = path := Option.some.inj (given.symm.trans output)
      exact ⟨config, program, image, prepares, rendered, whole.replaces _ _ _ _ wrote⟩

end

/-- What a run does to files. All that it reads is read before it writes, also where the output path
leads to the source or to the configuration. -/
structure FileEffects (host : Host State) (map : FileMap State Location) (options : Options)
    (before : State) (outcome : Outcome) (after : State) : Prop where
  exit : outcome.exitCode = 0 ↔ options.Succeeds host before
  failed : outcome.exitCode ≠ 0 → map.Unchanged before after
  printed : outcome.exitCode = 0 → options.output = none → map.Unchanged before after
  saved : ∀ path, outcome.exitCode = 0 → options.output = some path →
    ∃ config program image, options.Prepares (host.read before) config program ∧
      MemoryImage.render config program.instructions = .ok image ∧
      map.Replaced before path image after

end Options

namespace Tool

/-- A run changes files only if it succeeds, and then only what is at its output path. -/
theorem run_fileEffects (host : Host State) (map : FileMap State Location) (files : State)
    (whole : host.WritesWhole map files) :
    (∀ options : Options, options.FileEffects host map files (options.run host files).1
      (options.run host files).2) ∧
    ∀ arguments, (run host files arguments).1.exitCode ≠ 0 →
      map.Unchanged files (run host files arguments).2 := by
  constructor
  · intro options
    have ends := Options.run_ends host options files
    exact
      { exit := ends.exitCode_eq_zero_iff
        failed := fun failure => ends.unchanged whole (.inl failure)
        printed := fun _ noOutput => ends.unchanged whole (.inr noOutput)
        saved := fun _ success output => ends.replaced whole success output }
  · intro arguments
    unfold run
    cases CommandLine.parse arguments with
    | error error => exact fun _ => map.unchanged_refl files
    | ok invocation =>
        cases invocation with
        | assemble options =>
            intro failure
            exact (Options.run_ends host options files).unchanged whole (.inl failure)
        | showVersion => exact fun _ => map.unchanged_refl files
        | showHelp => exact fun _ => map.unchanged_refl files

/-- A file that may not be written keeps its content, and a source can be replaced by its image. -/
theorem run_fileEffects_on_tree :
    let files : Files :=
      { entries := [([], .directory), (["a"], .file "HALT".toUTF8), (["b"], .file "old".toUTF8)]
        workingDirectory := []
        unwritable := [["b"]] }
    let host := Files.host fun _ => "no configuration"
    let inPlace : Options := ⟨"a", some "./a", .text, none, some 1⟩
    (run host files ["a", "b"]).1 =
      ⟨1, "", "Error: writing b: Permission denied (os error 13)\n"⟩ ∧
    Files.map.Unchanged files (run host files ["a", "b"]).2 ∧
    (inPlace.run host files).1 = ⟨0, "Assembled 1 instructions to ./a\n", ""⟩ ∧
    ∃ config program image, inPlace.Prepares files.read config program ∧
      MemoryImage.render config program.instructions = .ok image ∧
      Files.map.Replaced files "./a" image (inPlace.run host files).2 := by
  intro files host inPlace
  have noDevice (place : Place) (device : Device) :
      files.get? place ≠ some (.device device) := by
    intro found
    simpa [files] using Files.mem_entries_of_get? found
  have whole : host.WritesWhole Files.map files := Files.writesWhole noDevice _
  have refused : (run host files ["a", "b"]).1 =
      ⟨1, "", "Error: writing b: Permission denied (os error 13)\n"⟩ := by decide
  have written : (inPlace.run host files).1 = ⟨0, "Assembled 1 instructions to ./a\n", ""⟩ := by
    decide
  obtain ⟨effects, unchanged⟩ := run_fileEffects host Files.map files whole
  exact ⟨refused, unchanged _ (by rw [refused]; decide), written,
    (effects inPlace).saved "./a" (by rw [written]) rfl⟩

end Tool

end TwoPass
