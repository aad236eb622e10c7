import TypedStub.CommandLine

/-! What a session finds in the files: what was written to a file last, its settings, and its module.

A file is found by the directories on the way to it. Writing a file leaves all directories as they are, so the file
is found where it was written.
-/

set_option autoImplicit false

namespace TypedStub.FileSystem

variable {files written : FileSystem} {place : Location} {node : FileNode}

theorem node?_setNode (files : FileSystem) (place other : Location) (node : FileNode) :
    (files.setNode place node).node? other =
      if other = [] then some .directory else if pathOf other = pathOf place then some node else files.node? other := by
  by_cases root : other = []
  · simp [node?, root]
  · simp [node?, setNode, root]

theorem directory_setNode (free : files.node? place ≠ some .directory) (isFile : node ≠ .directory) (other : Location) :
    (files.setNode place node).node? other = some .directory ↔ files.node? other = some .directory := by
  rw [node?_setNode]
  split
  · rename_i root
    simp [node?, root]
  · rename_i below
    split
    · -- The path leads to the file, which was no directory before.
      rename_i same
      have placed : place ≠ [] := fun root => free (by simp [node?, root])
      have occupied : files.node? other = files.node? place := by simp only [node?, below, placed, same, if_false]
      rw [occupied]
      exact iff_of_false (fun is => isFile (Option.some.inj is)) free
    · rfl

theorem walk?_congr (same : ∀ other, files.node? other = some .directory ↔ written.node? other = some .directory)
    (location : Location) (steps : List String) : files.walk? location steps = written.walk? location steps := by
  induction steps generalizing location with
  | nil => rfl
  | cons step rest ih => simp only [walk?, same, ih]

theorem locate?_setNode (free : files.node? place ≠ some .directory) (isFile : node ≠ .directory) (path : String) :
    (files.setNode place node).locate? path = files.locate? path := by
  have walks := walk?_congr (directory_setNode free isFile)
  unfold locate?
  rw [walks]
  rfl

/-- What is read from a file is what was written there last. -/
theorem readText_of_writeText? {path content : String} (wrote : files.writeText? path content = some written) :
    written.readText path = some content := by
  obtain ⟨place, located, placed⟩ := Option.bind_eq_some_iff.1 wrote
  split at placed
  · cases placed
  rename_i free
  cases placed
  have below : place ≠ [] := fun root => free (by simp [node?, root])
  have found : (files.setNode place (.text content)).nodeAt? path = some (.text content) := by
    rw [nodeAt?, locate?_setNode free (by simp), located, Option.bind_some, node?_setNode, if_neg below, if_pos rfl]
  simp only [readText, found]

end TypedStub.FileSystem

namespace TypedStub.CommandLine

/-! ### Settings and modules -/

abbrev Programs := String → List String → FileSystem → CommandStatus × FileSystem

def HoldsSettings (files : FileSystem) (path : String) (settings : Settings) : Prop :=
  ∃ text, files.readText path = some text ∧ Settings.parse? text = some settings

/-- The settings that the arguments name. Without a name they are those of the working directory, which are the
defaults if it has no settings file. -/
inductive HasSettings (files : FileSystem) : Option String → Settings → Prop where
  | named {path : String} {settings : Settings} : HoldsSettings files path settings →
      HasSettings files (some path) settings
  | own {settings : Settings} : files.hasWorkingDirectory = true → files.isFile Settings.fileName = true →
      HoldsSettings files Settings.fileName settings → HasSettings files none settings
  | default : files.hasWorkingDirectory = true → files.isFile Settings.fileName = false → HasSettings files none {}

section
variable {programs : Programs} {files : FileSystem} {settings : Settings}

theorem run_bind {α β : Type} (first : ExceptT Failure (StateM FileSystem) α)
    (next : α → ExceptT Failure (StateM FileSystem) β) (files : FileSystem) :
    (first >>= next) files =
      match first files with
      | (.ok value, later) => next value later
      | (.error failure, later) => (.error failure, later) := by
  change (StateT.bind first (ExceptT.bindCont next)) files = _
  unfold StateT.bind
  rcases first files with ⟨_ | _, later⟩ <;> rfl

theorem load_of_holdsSettings {path : String} (holds : HoldsSettings files path settings) :
    Settings.load (FileSystem.host programs) path files = (.ok settings, files) := by
  obtain ⟨text, read, parsed⟩ := holds
  simp only [Settings.load, FileSystem.host, bind, StateT.bind, read, parsed]
  rfl

theorem load_of_not_holdsSettings {path : String} (lacks : ∀ settings, ¬ HoldsSettings files path settings) :
    ∃ fault, Settings.load (FileSystem.host programs) path files = (.error fault, files) := by
  cases read : files.readText path with
  | none =>
    refine ⟨.unreadable, ?_⟩
    simp only [Settings.load, FileSystem.host, bind, StateT.bind, read]
    rfl
  | some text =>
    have malformed : Settings.parse? text = none :=
      Option.eq_none_iff_forall_ne_some.2 fun settings parsed => lacks settings ⟨text, read, parsed⟩
    refine ⟨.malformed, ?_⟩
    simp only [Settings.load, FileSystem.host, bind, StateT.bind, read, malformed]
    rfl

theorem discover_eq (programs : Programs) (files : FileSystem) :
    Settings.discover (FileSystem.host programs) "" files =
      if files.isFile Settings.fileName then Settings.load (FileSystem.host programs) Settings.fileName files
      else (.ok {}, files) := by
  have here : pathIn "" Settings.fileName = Settings.fileName := if_pos (.inl rfl)
  unfold Settings.discover
  rw [here]
  change (if files.isFile Settings.fileName = true then Settings.load (FileSystem.host programs) Settings.fileName
    else (pure (.ok {}) : StateM FileSystem _)) files = _
  split <;> rfl

theorem loadSettings_none (programs : Programs) (files : FileSystem) :
    loadSettings (FileSystem.host programs) none files =
      if files.hasWorkingDirectory then
        let found := Settings.discover (FileSystem.host programs) "" files
        (found.1.mapError .ownSettings, found.2)
      else (.error .noWorkingDirectory, files) := by
  change (if files.hasWorkingDirectory = true then
    (Settings.discover (FileSystem.host programs) "" >>= fun found => pure (found.mapError Failure.ownSettings))
    else (pure (.error .noWorkingDirectory) : StateM FileSystem _)) files = _
  split <;> rfl

theorem loadSettings_some (programs : Programs) (files : FileSystem) (path : String) :
    loadSettings (FileSystem.host programs) (some path) files =
      let found := Settings.load (FileSystem.host programs) path files
      (found.1.mapError (.settings path), found.2) := rfl

theorem loadSettings_of_hasSettings {path : Option String} (has : HasSettings files path settings) :
    loadSettings (FileSystem.host programs) path files = (.ok settings, files) := by
  cases has with
  | named holds =>
    rw [loadSettings_some, load_of_holdsSettings holds]
    rfl
  | own here found holds =>
    rw [loadSettings_none, if_pos here, discover_eq, if_pos found, load_of_holdsSettings holds]
    rfl
  | default here missing =>
    rw [loadSettings_none, if_pos here, discover_eq, if_neg (by simp [missing])]
    rfl

theorem loadSettings_of_not_hasSettings {path : Option String} (lacks : ∀ settings, ¬ HasSettings files path settings) :
    ∃ failure, loadSettings (FileSystem.host programs) path files = (.error failure, files) := by
  cases path with
  | some path =>
    obtain ⟨fault, loaded⟩ := @load_of_not_holdsSettings programs files path fun settings holds => lacks settings (.named holds)
    rw [loadSettings_some, loaded]
    exact ⟨_, rfl⟩
  | none =>
    rw [loadSettings_none]
    by_cases here : files.hasWorkingDirectory = true
    · rw [if_pos here, discover_eq]
      by_cases found : files.isFile Settings.fileName = true
      · obtain ⟨fault, loaded⟩ := @load_of_not_holdsSettings programs files Settings.fileName
          fun settings holds => lacks settings (.own here found holds)
        rw [if_pos found, loaded]
        exact ⟨_, rfl⟩
      · exact absurd (.default here (by simpa using found)) (lacks {})
    · rw [if_neg here]
      exact ⟨_, rfl⟩

theorem loadModule_eq (programs : Programs) (files : FileSystem) (directory name : String) :
    loadModule (FileSystem.host programs) directory name files =
      (match files.readText (Registry.fileOf directory name) with
        | none => .error (.registry name .unreadable)
        | some text => (Registry.parse name text).mapError (.registry name), files) := by
  unfold loadModule Registry.load
  simp only [FileSystem.host, ExceptT.mk, bind, StateT.bind]
  cases files.readText (Registry.fileOf directory name) <;> rfl

theorem HasSettings.unique {path : Option String} {other : Settings} (has : HasSettings files path settings)
    (hasOther : HasSettings files path other) : settings = other := by
  -- The settings are loaded before any program runs, so that every host will do.
  let programs : Programs := fun _ _ files => (.exited 0, files)
  have loaded : loadSettings (FileSystem.host programs) path files = (.ok other, files) := loadSettings_of_hasSettings hasOther
  rw [loadSettings_of_hasSettings has] at loaded
  injection loaded with same
  injection same

theorem module_unique {path text otherText : String} {mod other : Module} (read : files.readText path = some text)
    (parsed : Module.parse? text = some mod) (readOther : files.readText path = some otherText)
    (parsedOther : Module.parse? otherText = some other) : mod = other := by
  obtain rfl : text = otherText := Option.some.inj (read.symm.trans readOther)
  exact Option.some.inj (parsed.symm.trans parsedOther)

end

end TypedStub.CommandLine
