import Shortcode.Config.Load

/-! # Sources of configurations

Loading a configuration on a machine leaves the machine as it is. What it answers is decided by the
file that the settings come from, if there is one, and by the overriding settings. -/

namespace Shortcode.Config

/-- The path of a file of settings and the settings in it, or nothing where a run goes without. -/
abbrev Source := Option (Text × Settings)

/-- The first path of the search that leads to something. -/
def nearest? (s : Machine) : Option Text :=
  (candidates s.cwd).find? (s.files.contains s.cwd)

/-- The path of the file that is read, if there is one. -/
def located (s : Machine) : Option Text → Except Error (Option Text)
  | some path => if s.files.contains s.cwd path then .ok (some path) else .error (.notFound path)
  | none => .ok (nearest? s)

def settingsAt (s : Machine) (path : Text) : Except Error Settings :=
  (s.files.read s.cwd path).mapError Error.file >>= readSettings

/-- The source of a run, where a path that is asked for has to lead to something. -/
def source (s : Machine) (path? : Option Text) : Except Error Source :=
  match located s path? with
  | .error e => .error e
  | .ok none => .ok none
  | .ok (some path) => (settingsAt s path).map fun settings => some (path, settings)

/-- The settings of a source; without a file they are the default ones. -/
def settingsOf (source : Source) : Settings :=
  (source.map Prod.snd).getD {}

def ofSource (env : Environment) : Source → Except Error Config
  | some (path, settings) => ofSettings env path settings
  | none => .ok {}

theorem firstPresent?_run (s : Machine) (paths : List Text) :
    (firstPresent? (m := StateM Machine) paths).run s =
      (paths.find? (s.files.contains s.cwd), s) := by
  induction paths with
  | nil => rfl
  | cons path paths ih =>
    show (if s.files.contains s.cwd path then pure (some path) else firstPresent? paths :
      StateM Machine (Option Text)) s = _
    rw [List.find?_cons]
    cases s.files.contains s.cwd path with
    | true => rfl
    | false => exact ih

theorem locate_run (s : Machine) (path? : Option Text) :
    (locate (m := StateM Machine) path?).run s = (located s path?, s) := by
  cases path? with
  | some path =>
    show (if s.files.contains s.cwd path then pure (.ok (some path))
      else pure (.error (.notFound path)) : StateM Machine (Except Error (Option Text))) s = _
    rw [located]
    cases s.files.contains s.cwd path <;> rfl
  | none =>
    have hsearch := firstPresent?_run s (candidates s.cwd)
    show ((firstPresent? (m := StateM Machine) (candidates s.cwd)).run s).map
      (fun found? => (.ok found? : Except Error (Option Text))) id = _
    rw [hsearch]
    rfl

theorem ofFile_run (s : Machine) (path : Text) :
    (ofFile (m := StateM Machine) path).run s =
      (settingsAt s path >>= ofSettings s.env path, s) := by
  have hread : (MonadSystem.readFile (m := StateM Machine) path).run s =
      (pure (s.files.read s.cwd path, s) : Id _) := rfl
  simp only [ofFile, StateT.run_bind, hread, pure_bind, settingsAt]
  cases (s.files.read s.cwd path).mapError Error.file >>= readSettings with
  | error e => rfl
  | ok settings => rfl

/-- Loading reads the source of a run, makes a configuration of it and finishes it. -/
theorem load_run (path? : Option Text) (overrides? : Option Overrides) (s : Machine) :
    (load (m := StateM Machine) path? overrides?).run s =
      (source s path? >>= ofSource s.env >>= finish overrides?, s) := by
  have hlocate := locate_run s path?
  show (match ((locate (m := StateM Machine) path?).run s).1 with
    | .error e => pure (.error e)
    | .ok none => pure (finish overrides? {})
    | .ok (some path) => do return (← ofFile path) >>= finish overrides? :
        StateM Machine (Except Error Config)) ((locate (m := StateM Machine) path?).run s).2 = _
  rw [hlocate, source]
  cases located s path? with
  | error e => rfl
  | ok file? =>
    cases file? with
    | none => rfl
    | some path =>
      have hfile := ofFile_run s path
      show ((ofFile (m := StateM Machine) path).run s).map (· >>= finish overrides?) id = _
      rw [hfile]
      dsimp only
      cases settingsAt s path <;> rfl

/-- What loading a configuration answers on a machine. -/
def outcome (s : Machine) (path? : Option Text) (overrides? : Option Overrides) :
    Except Error Config :=
  ((load (m := StateM Machine) path? overrides?).run s).1

theorem outcome_eq (s : Machine) (path? : Option Text) (overrides? : Option Overrides) :
    outcome s path? overrides? = (source s path? >>= ofSource s.env >>= finish overrides?) := by
  rw [outcome, load_run]

end Shortcode.Config
