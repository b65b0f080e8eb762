import Mathlib.Data.List.Basic
import Shortcode.Proofs.Config.Checks
import Shortcode.Proofs.Config.SwitchKeys

/-! # Overriding settings

What overriding settings change of the configuration that a file gives. Lists of disabled kinds count
as sets, and what one of them switches off stays off. -/

namespace Shortcode

theorem Switches.disable_eq {s : Switches} {kinds kinds' : List Kind}
    (h : ∀ k, k ∈ kinds ↔ k ∈ kinds') : s.disable kinds = s.disable kinds' := by
  apply ext_isOn
  intro k
  have hlisted : kinds.contains k = kinds'.contains k := by
    rw [Bool.eq_iff_iff, List.contains_iff_mem, List.contains_iff_mem]
    exact h k
  rw [isOn_disable, isOn_disable, hlisted]

namespace Config

theorem isOn_assembled (env : Environment) (path : Text) (settings : Settings) (k : Kind) :
    (assembled env path settings).switches.isOn k = true ↔
      settings.switches.isOn k = true ∧ ∀ name ∈ settings.disable, Kind.ofText? name ≠ some k := by
  rw [assembled, Switches.isOn_disable]
  simp only [Bool.and_eq_true, Bool.not_eq_true', List.contains_eq_mem, decide_eq_false_iff_not,
    List.mem_filterMap, not_exists, not_and, ne_eq]

theorem ofSource_eq_assembled {env : Environment} {path : Text} {settings : Settings} {c : Config}
    (h : ofSource env (some (path, settings)) = .ok c) :
    c = assembled env path settings ∧
      ∀ failure? ∈ settingsFailures env settings, failure? = none := by
  rw [ofSource, ofSettings_eq, unlessFailed_eq_ok_iff] at h
  exact ⟨h.2.symm, h.1⟩

/-- Lists of disabled shortcodes with the same names in them make the same configuration. -/
theorem ofSource_disable {env : Environment} {path : Text} {settings : Settings} {c : Config}
    (h : ofSource env (some (path, settings)) = .ok c) {names : List Text}
    (hnames : ∀ name, name ∈ names ↔ name ∈ settings.disable) :
    ofSource env (some (path, { settings with disable := names })) = .ok c := by
  obtain ⟨rfl, hsound⟩ := ofSource_eq_assembled h
  rw [ofSource, ofSettings_eq, unlessFailed_eq_ok_iff]
  constructor
  · intro failure? hmem
    apply hsound
    simp only [settingsFailures, List.mem_append, List.mem_map] at hmem ⊢
    simpa only [hnames] using hmem
  · have hkinds : ∀ k, k ∈ names.filterMap Kind.ofText? ↔
        k ∈ settings.disable.filterMap Kind.ofText? := by
      intro k
      simp only [List.mem_filterMap, hnames]
    simp only [assembled, Switches.disable_eq hkinds]

theorem exists_source {s : Machine} {path? : Option Text} {c : Config}
    (h : outcome s path? none = .ok c) :
    ∃ src, source s path? = .ok src ∧ ofSource s.env src = .ok c := by
  rw [outcome_eq] at h
  obtain ⟨d, hbound, hfinish⟩ := exists_of_bind_eq_ok h
  obtain rfl := Except.ok.inj hfinish
  exact exists_of_bind_eq_ok hbound

theorem exists_root_of_source {s : Machine} {path? : Option Text} {path : Text} {settings : Settings}
    (h : source s path? = .ok (some (path, settings))) :
    ∃ text root, s.files.read s.cwd path = .ok text ∧ Toml.read? text = some root ∧
      Settings.ofEntries? root = some settings := by
  rw [source] at h
  split at h
  · cases h
  · cases h
  · next path' _ =>
    cases hread : s.files.read s.cwd path' with
    | error e =>
      rw [settingsAt, hread] at h
      cases h
    | ok text =>
      have hsettings : settingsAt s path' = readSettings text := by
        rw [settingsAt, hread]
        rfl
      rw [hsettings, readSettings] at h
      cases hroot : Settings.read? text with
      | none =>
        rw [hroot] at h
        cases h
      | some settings' =>
        rw [hroot] at h
        cases h
        obtain ⟨root, htoml, hroot⟩ := Option.bind_eq_some_iff.mp hroot
        exact ⟨text, root, hread, htoml, hroot⟩

theorem outcome_of_source {s : Machine} {path? : Option Text} {src : Source} {c : Config}
    (hsource : source s path? = .ok src) (h : ofSource s.env src = .ok c)
    (overrides? : Option Overrides) :
    outcome s path? overrides? =
      unlessFailed [overrideFailure? overrides?] ((overrides?.map c.override).getD c) := by
  have hfinish := finish_eq (ofSource_valid h) overrides?
  rw [outcome_eq, hsource, ← hfinish]
  show (ofSource s.env src >>= finish overrides?) = _
  rw [h]
  rfl

theorem isOn_of_source {env : Environment} {src : Source} {c : Config}
    (h : ofSource env src = .ok c) (k : Kind) :
    c.switches.isOn k = true ↔
      (settingsOf src).switches.isOn k = true ∧
        ∀ name ∈ (settingsOf src).disable, Kind.ofText? name ≠ some k := by
  cases src with
  | none =>
    obtain rfl := Except.ok.inj h
    cases k <;> decide
  | some file =>
    obtain ⟨rfl, -⟩ := ofSource_eq_assembled h
    exact isOn_assembled env file.1 file.2 k

theorem manifest?_of_source {env : Environment} {src : Source} {c : Config}
    (h : ofSource env src = .ok c) :
    c.manifest? = (src.bind fun (path, settings) =>
      settings.manifest?.map (Path.join ((Path.parent? path).getD "."))) := by
  cases src with
  | none =>
    obtain rfl := Except.ok.inj h
    rfl
  | some file =>
    obtain ⟨rfl, -⟩ := ofSource_eq_assembled h
    rfl

theorem unlessFailed_override_eq_error_iff {α : Type} (o : Overrides) (a : α) (e : Error) :
    unlessFailed [overrideFailure? (some o)] a = .error e ↔
      e = .fault .baseUrl ∧ ∃ url, o.baseUrl? = some url ∧ ¬ AllowedUrl url := by
  have hone : [overrideFailure? (some o)].findSome? id = o.baseUrl?.bind urlFailure? := by
    rw [List.findSome?_singleton]
    rfl
  rw [unlessFailed_eq_error_iff, hone]
  cases o.baseUrl? with
  | none => simp
  | some url =>
    by_cases hurl : AllowedUrl url
    · simp [urlFailure?, hurl]
    · simp [urlFailure?, hurl, eq_comm]

theorem override_disable (c : Config) (o : Overrides) {kinds : List Kind}
    (h : ∀ k, k ∈ kinds ↔ k ∈ o.disable) :
    c.override { o with disable := kinds } = c.override o := by
  simp only [override, Switches.disable_eq h]

/-- A configuration with overriding settings is refused exactly if they give a base URL that is not
allowed. Else it has their manifest, base URL and action URL where they are given, and everything else
is as without them. A kind is on if its switch in the file is not off and no list names it, so the
order of a list and what is repeated in it do not matter. A switch is off in the file if `false` stands
under the key of its kind. The manifest of a file is seen from the directory of the file. -/
theorem load_merges_overrides {s : Machine} {path? : Option Text} {c : Config}
    (h : outcome s path? none = .ok c) (o : Overrides) :
    ∃ src, source s path? = .ok src ∧
      let settings := settingsOf src
      (∀ e, outcome s path? (some o) = .error e ↔
        e = .fault .baseUrl ∧ ∃ url, o.baseUrl? = some url ∧ ¬ AllowedUrl url) ∧
      (∀ d, outcome s path? (some o) = .ok d →
        d = { c with
              switches := d.switches
              manifest? := o.manifest?.or c.manifest?
              baseUrl := o.baseUrl?.getD c.baseUrl
              actionUrl := o.actionUrl?.getD c.actionUrl } ∧
        ∀ k, d.switches.isOn k = true ↔
          settings.switches.isOn k = true ∧
            (∀ name ∈ settings.disable, Kind.ofText? name ≠ some k) ∧ k ∉ o.disable) ∧
      (∀ path, src = some (path, settings) →
        ∃ text root, s.files.read s.cwd path = .ok text ∧ Toml.read? text = some root ∧
          ∀ k, settings.switches.isOn k = true ↔
            (Settings.switchEntries root).reverse.lookup (Switches.label k) ≠
              some (.boolean false)) ∧
      c.manifest? = (src.bind fun (path, settings) =>
        settings.manifest?.map (Path.join ((Path.parent? path).getD "."))) ∧
      (∀ kinds, (∀ k, k ∈ kinds ↔ k ∈ o.disable) →
        outcome s path? (some { o with disable := kinds }) = outcome s path? (some o)) ∧
      ∀ path names s', src = some (path, settings) → s'.env = s.env →
        source s' path? = .ok (some (path, { settings with disable := names })) →
        (∀ name, name ∈ names ↔ name ∈ settings.disable) →
        ∀ overrides?, outcome s' path? overrides? = outcome s path? overrides? := by
  obtain ⟨src, hsource, hconfig⟩ := exists_source h
  have houtcome := outcome_of_source hsource hconfig
  refine ⟨src, hsource, ?_, ?_, ?_, ?_, ?_, ?_⟩
  · intro e
    rw [houtcome]
    exact unlessFailed_override_eq_error_iff o _ e
  · intro d hd
    rw [houtcome, unlessFailed_eq_ok_iff] at hd
    obtain ⟨-, rfl⟩ := hd
    refine ⟨rfl, ?_⟩
    intro k
    have hk := isOn_of_source hconfig k
    show (c.switches.disable o.disable).isOn k = true ↔ _
    rw [Switches.isOn_disable, Bool.and_eq_true, hk]
    simp [and_assoc]
  · intro path hfile
    rw [hfile] at hsource
    obtain ⟨text, root, hread, htoml, hroot⟩ := exists_root_of_source hsource
    exact ⟨text, root, hread, htoml, Settings.isOn_ofEntries? hroot⟩
  · exact manifest?_of_source hconfig
  · intro kinds hkinds
    have hsame := override_disable c o hkinds
    rw [houtcome, houtcome, Option.map_some, Option.map_some, hsame]
    rfl
  · intro path names s' hfile henv hsource' hnames overrides?
    rw [hfile] at hconfig
    have hconfig' := ofSource_disable hconfig hnames
    rw [← henv] at hconfig'
    rw [houtcome, outcome_of_source hsource' hconfig']

/-- A file in the directory above that switches one kind off by its switch and two by their names, and
overriding settings for another kind and everything else that they can give. -/
theorem load_merges_overrides_all :
    let content : String :=
      "[shortcodes]\nenable_tabs = false\ndisable = [\" Contact-Form\", \"alert\"]\n" ++
        "[media]\nmanifest = \"m.json\"\nbase_url = \"/f\"\n"
    let s : Machine :=
      { files := fun place =>
          if place = ["site".toList, "sc.toml".toList] then some (.file content.toUTF8)
          else if place <+: ["site".toList, "posts".toList] then some .directory
          else none
        cwd := ["site".toList, "posts".toList]
        env := fun _ => none
        input := .empty
        random := fun _ => Vector.replicate 16 0 }
    let c : Config :=
      { switches := .only [.button, .gallery, .accordion, .countdown]
        manifest? := some "/site/m.json".toList
        baseUrl := "/f".toList
        path? := some "/site/sc.toml".toList }
    let o : Overrides :=
      { disable := [.button, .tabs, .button]
        manifest? := some "n.json".toList
        baseUrl? := some "https://o".toList
        actionUrl? := some "/send".toList }
    let d : Config :=
      { switches := .only [.gallery, .accordion, .countdown]
        manifest? := some "n.json".toList
        baseUrl := "https://o".toList
        actionUrl := "/send".toList
        path? := some "/site/sc.toml".toList }
    outcome s none none = .ok c ∧ outcome s none (some o) = .ok d ∧
      outcome s none (some { o with disable := [.tabs, .button] }) = .ok d ∧
      outcome s none (some { o with baseUrl? := some "ftp://o".toList }) =
        .error (.fault .baseUrl) := by
  intro content s c o d
  have hplain : outcome s none none = .ok c := by decide +kernel
  have hmerged : outcome s none (some o) = .ok d := by decide +kernel
  refine ⟨hplain, hmerged, ?_, ?_⟩
  · obtain ⟨src, -, -, -, -, -, hsame, -⟩ := load_merges_overrides hplain o
    have hkinds : ∀ k, k ∈ [Kind.tabs, .button] ↔ k ∈ o.disable := by
      intro k
      cases k <;> decide
    rw [hsame [.tabs, .button] hkinds]
    exact hmerged
  · obtain ⟨src, -, hrefused, -⟩ :=
      load_merges_overrides hplain { o with baseUrl? := some "ftp://o".toList }
    exact (hrefused (.fault .baseUrl)).mpr ⟨rfl, "ftp://o".toList, rfl, by decide⟩

end Config

end Shortcode
