import Mathlib.Data.List.Induction
import Mathlib.Data.List.Infix
import Shortcode.Proofs.Config.Overrides
import Shortcode.Proofs.Files.Places

/-! # The nearest file of settings

A run that is given no path takes the file of settings of the nearest directory: of the working
directory, or else of the first one above it that has such a file. No file farther up counts, and no
other one but those that were looked for on the way. -/

namespace Shortcode

namespace Path

/-- Above a directory come the directories above the one that it stands in. -/
theorem ancestors_append (place : List Text) (name : Text) :
    ancestors (place ++ [name]) = (place ++ [name]) :: ancestors place := by
  induction place with
  | nil => rfl
  | cons first place ih => rw [List.cons_append, ancestors, ih, ancestors]; rfl

end Path

namespace Config

/-- The path of the file of settings in a directory. -/
def pathIn (directory : Place) : Text :=
  Path.absolute (directory ++ [fileName])

/-- Of a place and the directories above it, the one with a file of settings that is nearest to the
place. -/
structure IsNearest (t : FileTree) (place directory : Place) : Prop where
  above : directory <+: place
  shows : t.Shows (directory ++ [fileName])
  nearest : ∀ other, other <+: place → t.Shows (other ++ [fileName]) → other <+: directory

/-- There is no file of settings from a place up to the root. -/
def NoFile (t : FileTree) (place : Place) : Prop :=
  ∀ directory, directory <+: place → ¬ t.Shows (directory ++ [fileName])

/-- The settings in the file of a directory. -/
def settingsIn (t : FileTree) (directory : Place) : Except Error Settings :=
  (t.textAt (directory ++ [fileName])).mapError Error.file >>= readSettings

variable {t t' : FileTree} {s s' : Machine} {cwd place directory : Place} {name : Text}
  {overrides? : Option Overrides}

theorem isName_fileName : Path.IsName fileName := by
  constructor <;> decide

theorem candidates_append (place : Place) (name : Text) :
    candidates (place ++ [name]) = pathIn (place ++ [name]) :: candidates place := by
  rw [candidates, Path.ancestors_append]
  rfl

theorem candidates_eq_cons (place : Place) : ∃ rest, candidates place = pathIn place :: rest := by
  rcases List.eq_nil_or_concat place with rfl | ⟨front, name, rfl⟩
  · exact ⟨[], rfl⟩
  · rw [List.concat_eq_append]
    exact ⟨_, candidates_append front name⟩

/-! ### Directories with a file -/

theorem shows_congr (h : t' place = t place) : t'.Shows place ↔ t.Shows place := by
  rw [FileTree.Shows, FileTree.Shows, h]

theorem isNearest_self (h : t.Shows (place ++ [fileName])) : IsNearest t place place :=
  ⟨List.prefix_refl _, h, fun _ hother _ => hother⟩

/-- Without a file in a directory, the nearest one is nearest to the directory above. -/
theorem isNearest_append (h : ¬ t.Shows (place ++ [name] ++ [fileName])) :
    IsNearest t (place ++ [name]) directory ↔ IsNearest t place directory := by
  have habove : ∀ other, t.Shows (other ++ [fileName]) → other <+: place ++ [name] →
      other <+: place := by
    intro other hshows hother
    rcases List.prefix_concat_iff.mp hother with rfl | hother
    · exact absurd hshows h
    · exact hother
  constructor
  · intro hnearest
    exact ⟨habove directory hnearest.shows hnearest.above, hnearest.shows, fun other hother =>
      hnearest.nearest other (hother.trans (List.prefix_append ..))⟩
  · intro hnearest
    exact ⟨hnearest.above.trans (List.prefix_append ..), hnearest.shows, fun other hother hshows =>
      hnearest.nearest other (habove other hshows hother) hshows⟩

theorem exists_isNearest_or_noFile (t : FileTree) (place : Place) :
    (∃ directory, IsNearest t place directory) ∨ NoFile t place := by
  induction place using List.reverseRecOn with
  | nil =>
    by_cases hshows : t.Shows ([] ++ [fileName])
    · exact .inl ⟨_, isNearest_self hshows⟩
    · refine .inr ?_
      intro directory hdirectory
      rwa [List.prefix_nil.mp hdirectory]
  | append_singleton place name ih =>
    by_cases hshows : t.Shows (place ++ [name] ++ [fileName])
    · exact .inl ⟨_, isNearest_self hshows⟩
    · rcases ih with ⟨directory, hnearest⟩ | hnone
      · exact .inl ⟨directory, (isNearest_append hshows).mpr hnearest⟩
      · refine .inr ?_
        intro directory hdirectory
        rcases List.prefix_concat_iff.mp hdirectory with rfl | hdirectory
        · exact hshows
        · exact hnone directory hdirectory

/-! ### The search -/

theorem find?_of_shows (h : t.HasDirectory place) (hshows : t.Shows (place ++ [fileName])) :
    (candidates place).find? (t.contains cwd) = some (pathIn place) := by
  obtain ⟨rest, hrest⟩ := candidates_eq_cons place
  have hfound : t.contains cwd (pathIn place) = true := (h.contains_iff isName_fileName).mpr hshows
  rw [hrest, List.find?_cons_of_pos hfound]

theorem find?_of_not_shows (h : t.HasDirectory (place ++ [name]))
    (hshows : ¬ t.Shows (place ++ [name] ++ [fileName])) :
    (candidates (place ++ [name])).find? (t.contains cwd) =
      (candidates place).find? (t.contains cwd) := by
  have hmissed : ¬ t.contains cwd (pathIn (place ++ [name])) = true :=
    mt (h.contains_iff isName_fileName).mp hshows
  rw [candidates_append, List.find?_cons_of_neg hmissed]

/-- The search goes up directory by directory and ends at the nearest one with the file. -/
theorem find?_of_isNearest (h : t.HasDirectory place) (hnearest : IsNearest t place directory) :
    (candidates place).find? (t.contains cwd) = some (pathIn directory) := by
  -- The last name is taken off, as the search does it when it goes up.
  induction place using List.reverseRecOn with
  | nil =>
    obtain rfl := List.prefix_nil.mp hnearest.above
    exact find?_of_shows h hnearest.shows
  | append_singleton place name ih =>
    by_cases hshows : t.Shows (place ++ [name] ++ [fileName])
    · have hlonger := hnearest.nearest _ (List.prefix_refl _) hshows
      obtain rfl := hnearest.above.eq_of_length_le hlonger.length_le
      exact find?_of_shows h hshows
    · rw [find?_of_not_shows h hshows]
      exact ih (h.of_prefix (List.prefix_append ..)) ((isNearest_append hshows).mp hnearest)

theorem find?_of_noFile (h : t.HasDirectory place) (hnone : NoFile t place) :
    (candidates place).find? (t.contains cwd) = none := by
  induction place using List.reverseRecOn with
  | nil =>
    have hmissed : ¬ t.contains cwd (pathIn []) = true :=
      mt (h.contains_iff isName_fileName).mp (hnone [] (List.prefix_refl _))
    exact List.find?_cons_of_neg hmissed
  | append_singleton place name ih =>
    rw [find?_of_not_shows h (hnone _ (List.prefix_refl _))]
    exact ih (h.of_prefix (List.prefix_append ..)) fun directory hdirectory =>
      hnone directory (hdirectory.trans (List.prefix_append ..))

/-! ### What is loaded -/

theorem settingsAt_pathIn (h : s.files.HasDirectory directory)
    (hshows : s.files.Shows (directory ++ [fileName])) :
    settingsAt s (pathIn directory) = settingsIn s.files directory := by
  rw [settingsAt, settingsIn, pathIn, h.read_absolute isName_fileName hshows.2]

theorem located_of_isNearest (h : s.files.HasDirectory s.cwd)
    (hnearest : IsNearest s.files s.cwd directory) :
    located s none = .ok (some (pathIn directory)) :=
  congrArg Except.ok (find?_of_isNearest h hnearest)

theorem located_of_noFile (h : s.files.HasDirectory s.cwd) (hnone : NoFile s.files s.cwd) :
    located s none = .ok none :=
  congrArg Except.ok (find?_of_noFile h hnone)

theorem source_of_isNearest (h : s.files.HasDirectory s.cwd)
    (hnearest : IsNearest s.files s.cwd directory) :
    source s none =
      (settingsIn s.files directory).map fun settings => some (pathIn directory, settings) := by
  have hsettings := settingsAt_pathIn (h.of_prefix hnearest.above) hnearest.shows
  rw [source, located_of_isNearest h hnearest, ← hsettings]

theorem source_pathIn (h : s.files.HasDirectory s.cwd)
    (hnearest : IsNearest s.files s.cwd directory) :
    source s (some (pathIn directory)) = source s none := by
  have hfound : s.files.contains s.cwd (pathIn directory) = true :=
    ((h.of_prefix hnearest.above).contains_iff isName_fileName).mpr hnearest.shows
  rw [source, source, located_of_isNearest h hnearest, located, if_pos hfound]

theorem outcome_of_noFile (h : s.files.HasDirectory s.cwd) (hnone : NoFile s.files s.cwd)
    (overrides? : Option Overrides) : outcome s none overrides? = finish overrides? {} := by
  rw [outcome_eq, source, located_of_noFile h hnone]
  rfl

theorem finish_eq_ok {c d : Config} (h : finish overrides? d = .ok c) :
    c.path? = d.path? ∧ c.manifest? = (overrides?.bind Overrides.manifest?).or d.manifest? := by
  cases overrides? with
  | none =>
    obtain rfl := Except.ok.inj h
    exact ⟨rfl, rfl⟩
  | some o =>
    obtain ⟨-, rfl⟩ := validate_eq_ok_iff.mp h
    exact ⟨rfl, rfl⟩

/-- The path of a manifest that the settings of a directory give. -/
def manifestIn (directory : Place) (manifest : Text) : Text :=
  if manifest.head? = some '/' then manifest else Path.absolute (directory ++ [manifest])

theorem manifest?_assembled (h : ∀ name ∈ directory, Path.IsName name) (env : Environment)
    (settings : Settings) :
    (assembled env (pathIn directory) settings).manifest? =
      settings.manifest?.map (manifestIn directory) := by
  have hparent := Path.parent?_absolute h isName_fileName
  have hjoin : Path.join (Path.absolute directory) = manifestIn directory := by
    funext manifest
    exact Path.join_absolute h manifest
  simp only [assembled, pathIn, hparent, Option.getD_some, hjoin]

/-- What a run without a path does where `directory` is the nearest one with a file of settings. -/
structure LoadsFrom (s : Machine) (overrides? : Option Overrides) (directory : Place) : Prop where
  /-- The search ends at the file. -/
  found : (locate (m := StateM Machine) none).run s = (.ok (some (pathIn directory)), s)
  /-- The run goes on as if it had been given the path of the file. -/
  outcome_eq : outcome s none overrides? = outcome s (some (pathIn directory)) overrides?
  /-- The configuration comes from that path and has the manifest that the file gives, seen from the
  directory, unless the overriding settings give another. -/
  config_eq : ∀ c, outcome s none overrides? = .ok c → c.path? = some (pathIn directory) ∧
    ∃ settings, settingsIn s.files directory = .ok settings ∧
      c.manifest? = (overrides?.bind Overrides.manifest?).or
        (settings.manifest?.map (manifestIn directory))

theorem loadsFrom_of_isNearest (h : s.files.HasDirectory s.cwd)
    (hnearest : IsNearest s.files s.cwd directory) : LoadsFrom s overrides? directory := by
  refine ⟨?_, ?_, ?_⟩
  · rw [locate_run, located_of_isNearest h hnearest]
  · rw [outcome_eq, outcome_eq, source_pathIn h hnearest]
  · intro c hc
    rw [outcome_eq, source_of_isNearest h hnearest] at hc
    obtain ⟨d, hbound, hfinish⟩ := exists_of_bind_eq_ok hc
    obtain ⟨src, hsource, hof⟩ := exists_of_bind_eq_ok hbound
    cases hsettings : settingsIn s.files directory with
    | error e =>
      rw [hsettings] at hsource
      cases hsource
    | ok settings =>
      rw [hsettings] at hsource
      obtain rfl := Except.ok.inj hsource
      obtain ⟨rfl, -⟩ := ofSource_eq_assembled hof
      obtain ⟨hpath, hmanifest⟩ := finish_eq_ok hfinish
      have hnames := (h.of_prefix hnearest.above).names
      rw [manifest?_assembled hnames] at hmanifest
      exact ⟨hpath, settings, rfl, hmanifest⟩

/-! ### What does not count -/

/-- Two machines agree on their environment and on what the search of the first one looks at: on the
files of settings from the working directory up to the nearest one. -/
structure AgreesOnSearch (s s' : Machine) : Prop where
  env : s'.env = s.env
  cwd : s'.cwd = s.cwd
  hasDirectory : s'.files.HasDirectory s.cwd
  files : ∀ place, place <+: s.cwd →
    (∀ directory, IsNearest s.files s.cwd directory → directory <+: place) →
      s'.files (place ++ [fileName]) = s.files (place ++ [fileName])

theorem AgreesOnSearch.isNearest (h : AgreesOnSearch s s')
    (hnearest : IsNearest s.files s.cwd directory) : IsNearest s'.files s.cwd directory := by
  have hkept : ∀ place, place <+: s.cwd → directory <+: place →
      (s'.files.Shows (place ++ [fileName]) ↔ s.files.Shows (place ++ [fileName])) := by
    intro place hplace hbelow
    refine shows_congr (h.files place hplace ?_)
    intro other hother
    exact (hnearest.nearest other hother.above hother.shows).trans hbelow
  refine ⟨hnearest.above, ?_, ?_⟩
  · exact (hkept directory hnearest.above (List.prefix_refl _)).mpr hnearest.shows
  · intro other hother hshows
    -- Both are above one place, so either is above the other. The entries of those farther up may
    -- have changed, but only from the nearest one down do they matter.
    rcases List.prefix_or_prefix_of_prefix hother hnearest.above with habove | hbelow
    · exact habove
    · exact hnearest.nearest other hother ((hkept other hother hbelow).mp hshows)

theorem AgreesOnSearch.noFile (h : AgreesOnSearch s s') (hnone : NoFile s.files s.cwd) :
    NoFile s'.files s.cwd := by
  intro place hplace hshows
  refine hnone place hplace ((shows_congr (h.files place hplace ?_)).mp hshows)
  intro directory hnearest
  exact absurd hnearest.shows (hnone directory hnearest.above)

theorem AgreesOnSearch.outcome_eq (h : AgreesOnSearch s s') (hcwd : s.files.HasDirectory s.cwd)
    (overrides? : Option Overrides) :
    outcome s' none overrides? = outcome s none overrides? := by
  have hcwd' : s'.files.HasDirectory s'.cwd := h.cwd ▸ h.hasDirectory
  rcases exists_isNearest_or_noFile s.files s.cwd with ⟨directory, hnearest⟩ | hnone
  · have hnearest' : IsNearest s'.files s'.cwd directory := h.cwd ▸ h.isNearest hnearest
    have hfile : s'.files (directory ++ [fileName]) = s.files (directory ++ [fileName]) :=
      h.files directory hnearest.above fun other hother =>
        hnearest.nearest other hother.above hother.shows
    have hsettings : settingsIn s'.files directory = settingsIn s.files directory := by
      rw [settingsIn, settingsIn, FileTree.textAt, FileTree.textAt, hfile]
    rw [Config.outcome_eq, Config.outcome_eq, source_of_isNearest hcwd hnearest,
      source_of_isNearest hcwd' hnearest', hsettings, h.env]
  · have hnone' : NoFile s'.files s'.cwd := h.cwd ▸ h.noFile hnone
    rw [outcome_of_noFile hcwd hnone, outcome_of_noFile hcwd' hnone']

/-- A run without a path takes its settings from the nearest of the working directory and the
directories above it that has a file of settings, and it has the default ones exactly if none of them
has. No other file changes what it answers. A file of settings is an entry with the right name,
provided that the system takes its path, and it does for all of them if it does in the working
directory. -/
theorem load_finds_nearest {s : Machine} (h : s.files.HasDirectory s.cwd)
    (overrides? : Option Overrides) :
    ((∃ directory, IsNearest s.files s.cwd directory) ∨ NoFile s.files s.cwd) ∧
      (∀ directory, IsNearest s.files s.cwd directory → LoadsFrom s overrides? directory) ∧
      (NoFile s.files s.cwd → (locate (m := StateM Machine) none).run s = (.ok none, s) ∧
        outcome s none overrides? = finish overrides? {}) ∧
      (outcome s none none = .ok {} ↔ NoFile s.files s.cwd) ∧
      (∀ s', AgreesOnSearch s s' → outcome s' none overrides? = outcome s none overrides?) ∧
      ((pathIn s.cwd).utf8Length ≤ Path.maxLength → ∀ directory, directory <+: s.cwd →
        (s.files.Shows (directory ++ [fileName]) ↔
          (s.files (directory ++ [fileName])).isSome = true)) := by
  refine ⟨exists_isNearest_or_noFile s.files s.cwd, fun directory => loadsFrom_of_isNearest h, ?_,
    ⟨?_, fun hnone => outcome_of_noFile h hnone none⟩,
    fun s' hagrees => hagrees.outcome_eq h overrides?, ?_⟩
  · intro hnone
    rw [locate_run, located_of_noFile h hnone]
    exact ⟨rfl, outcome_of_noFile h hnone overrides?⟩
  · intro hdefault
    rcases exists_isNearest_or_noFile s.files s.cwd with ⟨directory, hnearest⟩ | hnone
    · have hloads : LoadsFrom s none directory := loadsFrom_of_isNearest h hnearest
      obtain ⟨hpath, -⟩ := hloads.config_eq {} hdefault
      cases hpath
    · exact hnone
  · intro hshort directory hdirectory
    have hlength := Path.utf8Length_absolute_le hdirectory fileName
    exact and_iff_left (Nat.le_trans hlength hshort)

/-- The file in the directory above counts, whatever is at the root. Without it the one at the root
does, and without that one none. -/
theorem load_finds_nearest_of_two :
    let content (manifest : String) : Entry :=
      .file ("[media]\nmanifest = \"" ++ manifest ++ "\"\n").toUTF8
    let cwd : Place := ["site".toList, "posts".toList]
    let s (top? middle? : Option Entry) : Machine :=
      { files := fun place =>
          if place = [fileName] then top?
          else if place = ["site".toList, fileName] then middle?
          else if place <+: cwd then some .directory
          else none
        cwd
        env := fun _ => none
        input := .empty
        random := fun _ => Vector.replicate 16 0 }
    let near := content "m.json"
    let far := content "/n.json"
    (∀ top? middle?, (s top? middle?).files.HasDirectory cwd) ∧
      IsNearest (s (some far) (some near)).files cwd ["site".toList] ∧
      LoadsFrom (s (some far) (some near)) none ["site".toList] ∧
      outcome (s (some far) (some near)) none none =
        .ok { manifest? := some "/site/m.json".toList, path? := some "/site/sc.toml".toList } ∧
      AgreesOnSearch (s (some far) (some near)) (s (some .directory) (some near)) ∧
      outcome (s (some .directory) (some near)) none none =
        .ok { manifest? := some "/site/m.json".toList, path? := some "/site/sc.toml".toList } ∧
      IsNearest (s (some far) none).files cwd [] ∧
      LoadsFrom (s (some far) none) none [] ∧
      NoFile (s none none).files cwd ∧ outcome (s none none) none none = .ok {} := by
  intro content cwd s near far
  have hinits : ∀ front, front <+: cwd → front = [] ∨ front = ["site".toList] ∨ front = cwd := by
    intro front hfront
    have hmem := (List.mem_inits front cwd).mpr hfront
    simpa [cwd] using hmem
  have hcwd : ∀ top? middle?, (s top? middle?).files.HasDirectory cwd := by
    intro top? middle?
    constructor
    · simp only [cwd, List.forall_mem_cons]
      exact ⟨by constructor <;> decide, by constructor <;> decide, by simp⟩
    · intro front hfront
      rcases hinits front hfront with rfl | rfl | rfl <;> rfl
  have hlow : ∀ top? middle?, ¬ (s top? middle?).files.Shows (cwd ++ [fileName]) := by
    intro top? middle? hshows
    have hnothing : (s top? middle?).files (cwd ++ [fileName]) = none := rfl
    rw [FileTree.Shows, hnothing] at hshows
    cases hshows.1
  have hnear : IsNearest (s (some far) (some near)).files cwd ["site".toList] := by
    refine ⟨⟨["posts".toList], rfl⟩, ⟨rfl, by decide⟩, ?_⟩
    intro other hother hshows
    rcases hinits other hother with rfl | rfl | rfl
    · exact List.nil_prefix
    · exact List.prefix_refl _
    · exact absurd hshows (hlow _ _)
  have hfar : IsNearest (s (some far) none).files cwd [] := by
    refine ⟨List.nil_prefix, ⟨rfl, by decide⟩, ?_⟩
    intro other hother hshows
    rcases hinits other hother with rfl | rfl | rfl
    · exact List.nil_prefix
    · exact absurd hshows.1 (by decide)
    · exact absurd hshows (hlow _ _)
  have hnone : NoFile (s none none).files cwd := by
    intro directory hdirectory hshows
    rcases hinits directory hdirectory with rfl | rfl | rfl <;> exact absurd hshows.1 (by decide)
  have hagrees : AgreesOnSearch (s (some far) (some near)) (s (some .directory) (some near)) := by
    refine ⟨rfl, rfl, hcwd _ _, ?_⟩
    intro place hplace hbelow
    have hlower := hbelow _ hnear
    rcases hinits place hplace with rfl | rfl | rfl
    · exact absurd hlower (by decide)
    · rfl
    · rfl
  obtain ⟨-, hloads, -, -, hsame, -⟩ := load_finds_nearest (hcwd (some far) (some near)) none
  obtain ⟨-, hloads', -⟩ := load_finds_nearest (hcwd (some far) none) none
  obtain ⟨-, -, -, hdefault, -⟩ := load_finds_nearest (hcwd none none) none
  have houtcome : outcome (s (some far) (some near)) none none =
      .ok { manifest? := some "/site/m.json".toList, path? := some "/site/sc.toml".toList } := by
    decide +kernel
  exact ⟨hcwd, hnear, hloads _ hnear, houtcome, hagrees, (hsame _ hagrees).trans houtcome, hfar,
    hloads' _ hfar, hnone, hdefault.mpr hnone⟩

end Config

end Shortcode
