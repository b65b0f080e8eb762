import Mathlib.Data.List.Basic
import Shortcode.Proofs.Config.Sources
import Shortcode.Proofs.Files.Writing

/-! # Checks of configurations

A configuration passes a list of checks, and the first one that fails is the error of the run. The
checks of a file come in the order of its reading; the overriding settings bring the last one. -/

namespace Shortcode.Config

/-- A value, unless a check fails; the first failure counts. -/
def unlessFailed {α : Type} (failures : List (Option Error)) (a : α) : Except Error α :=
  match failures.findSome? id with
  | some e => .error e
  | none => .ok a

/-! ### The checks -/

/-- A setting must not refer to a variable that is not set. -/
def expansionFailure? (env : Environment) (field : Field) (text : Text) : Option Error :=
  match env.expand text with
  | .ok _ => none
  | .error e => some (.unset field e)

/-- A name in the list of disabled shortcodes must be the name of a kind. -/
def nameFailure? (name : Text) : Option Error :=
  if Kind.ofText? name = none then some (.unknownShortcode name) else none

/-- A base URL is empty or begins in one of three ways. -/
def AllowedUrl (url : Text) : Prop :=
  url = [] ∨ "http://".toList <+: url ∨ "https://".toList <+: url ∨ "/".toList <+: url

instance (url : Text) : Decidable (AllowedUrl url) :=
  inferInstanceAs (Decidable (_ ∨ _ ∨ _ ∨ _))

def urlFailure? (url : Text) : Option Error :=
  if AllowedUrl url then none else some (.fault .baseUrl)

/-- A label that is given must not be empty. -/
def labelFailure? (labels : Labels) (l : FormLabel) : Option Error :=
  if labels.get? l = some [] then some (.fault (.emptyLabel l)) else none

/-- The text of a setting behind its check. -/
def expanded (env : Environment) (text : Text) : Text :=
  (env.expand text).toOption.getD []

/-- The checks that the settings of a file pass, in their order. -/
def settingsFailures (env : Environment) (settings : Settings) : List (Option Error) :=
  [expansionFailure? env .baseUrl settings.baseUrl,
    expansionFailure? env .actionUrl settings.actionUrl,
    expansionFailure? env .token settings.token] ++
  settings.disable.map nameFailure? ++
  [urlFailure? (expanded env settings.baseUrl)] ++
  FormLabel.all.map (labelFailure? settings.labels)

/-- The checks of the file at a path, which has to hold a document of settings. -/
def fileFailures (s : Machine) (path : Text) : List (Option Error) :=
  match s.files.read s.cwd path with
  | .error e => [some (.file e)]
  | .ok text =>
    match Settings.read? text with
    | none => [some .malformed]
    | some settings => settingsFailures s.env settings

/-- The base URL is the only overriding setting that is checked. -/
def overrideFailure? (overrides? : Option Overrides) : Option Error :=
  (overrides?.bind Overrides.baseUrl?).bind urlFailure?

/-- The checks of a run in their order, each with its failure. Where no file is found, only the
overriding settings are checked. -/
def failures (s : Machine) (path? : Option Text) (overrides? : Option Overrides) :
    List (Option Error) :=
  (match path?.or (nearest? s) with
    | some path => fileFailures s path
    | none => []) ++ [overrideFailure? overrides?]

/-! ### What the steps check -/

variable {α β : Type} {env : Environment}

theorem unlessFailed_bind (xs : List (Option Error)) (a : α) (ys : α → List (Option Error))
    (f : α → β) :
    (unlessFailed xs a >>= fun a => unlessFailed (ys a) (f a)) = unlessFailed (xs ++ ys a) (f a) := by
  simp only [unlessFailed, List.findSome?_append]
  cases xs.findSome? id <;> rfl

theorem unlessFailed_eq_error_iff {failures : List (Option Error)} {a : α} {e : Error} :
    unlessFailed failures a = .error e ↔ failures.findSome? id = some e := by
  rw [unlessFailed]
  cases failures.findSome? id <;> simp

theorem unlessFailed_eq_ok_iff {failures : List (Option Error)} {a b : α} :
    unlessFailed failures a = .ok b ↔ (∀ failure? ∈ failures, failure? = none) ∧ a = b := by
  have hnone : failures.findSome? id = none ↔ ∀ failure? ∈ failures, failure? = none :=
    List.findSome?_eq_none_iff
  rw [unlessFailed, ← hnone]
  cases failures.findSome? id <;> simp

theorem expand_eq (field : Field) (text : Text) :
    expand env field text =
      unlessFailed [expansionFailure? env field text] (expanded env text) := by
  simp only [expand, unlessFailed, expansionFailure?, expanded]
  cases env.expand text <;> rfl

theorem readKinds_eq (names : List Text) :
    readKinds names = unlessFailed (names.map nameFailure?) (names.filterMap Kind.ofText?) := by
  induction names with
  | nil => rfl
  | cons name names ih =>
    have hname : ((Kind.read name).mapError fun _ => Error.unknownShortcode name) =
        (Kind.ofText? name).elim (.error (.unknownShortcode name)) .ok := by
      rw [Kind.read]
      cases Kind.ofText? name <;> rfl
    rw [readKinds] at ih
    rw [readKinds, List.mapM_cons, hname, ih, List.map_cons, List.filterMap_cons]
    simp only [unlessFailed, List.findSome?_cons, nameFailure?]
    cases Kind.ofText? name with
    | none => rfl
    | some k => cases (names.map nameFailure?).findSome? id <;> rfl

theorem urlFailure?_eq_none_iff {url : Text} : urlFailure? url = none ↔ AllowedUrl url := by
  rw [urlFailure?]
  split
  · rename_i haccepted
    exact iff_of_true rfl haccepted
  · rename_i hrefused
    exact iff_of_false (by simp) hrefused

theorem labelFailure?_eq_none_iff {labels : Labels} {l : FormLabel} :
    labelFailure? labels l = none ↔ labels.get? l ≠ some [] := by
  rw [labelFailure?]
  split
  · rename_i hempty
    exact iff_of_false (by simp) fun hne => hne hempty
  · rename_i hne
    exact iff_of_true rfl hne

theorem urlFailure?_eq (url : Text) :
    urlFailure? url = if isAcceptedUrl url then none else some (.fault .baseUrl) := by
  have haccepted : isAcceptedUrl url = true ↔ AllowedUrl url := by
    simp [isAcceptedUrl, urlBeginnings, AllowedUrl, List.isPrefixOf_iff_prefix]
  rw [urlFailure?]
  simp only [haccepted]

theorem labelFailures_eq (labels : Labels) (ls : List FormLabel) :
    (ls.map (labelFailure? labels)).findSome? id =
      (ls.find? fun l => labels.get? l = some []).map fun l => .fault (.emptyLabel l) := by
  induction ls with
  | nil => rfl
  | cons l ls ih =>
    rw [List.map_cons, List.findSome?_cons, List.find?_cons, ih, labelFailure?]
    by_cases h : labels.get? l = some []
    · simp [h]
    · simp [h]

theorem validate_eq (c : Config) :
    c.validate =
      unlessFailed (urlFailure? c.baseUrl :: FormLabel.all.map (labelFailure? c.labels)) c := by
  have hlabels := labelFailures_eq c.labels FormLabel.all
  simp only [validate, fault?, unlessFailed, List.findSome?_cons, urlFailure?_eq, id, hlabels,
    Labels.firstEmpty?]
  cases isAcceptedUrl c.baseUrl with
  | true => cases FormLabel.all.find? fun l => c.labels.get? l = some [] <;> rfl
  | false => rfl

/-- The configuration that settings make if they pass the checks. -/
def assembled (env : Environment) (path : Text) (settings : Settings) : Config where
  switches := settings.switches.disable (settings.disable.filterMap Kind.ofText?)
  manifest? := settings.manifest?.map (Path.join ((Path.parent? path).getD "."))
  baseUrl := expanded env settings.baseUrl
  actionUrl := expanded env settings.actionUrl
  token := expanded env settings.token
  labels := settings.labels
  path? := some path

theorem ofSettings_eq (env : Environment) (path : Text) (settings : Settings) :
    ofSettings env path settings =
      unlessFailed (settingsFailures env settings) (assembled env path settings) := by
  simp only [ofSettings, expand_eq, readKinds_eq, validate_eq, unlessFailed_bind, settingsFailures,
    List.append_assoc]
  rfl

/-! ### Valid configurations -/

theorem validate_eq_ok_iff {c d : Config} :
    c.validate = .ok d ↔
      (urlFailure? c.baseUrl = none ∧ ∀ l, labelFailure? c.labels l = none) ∧ c = d := by
  have hall : ∀ l, l ∈ FormLabel.all := by
    intro l
    cases l <;> decide
  rw [validate_eq, unlessFailed_eq_ok_iff, List.forall_mem_cons, List.forall_mem_map]
  constructor
  · intro h
    exact ⟨⟨h.1.1, fun l => h.1.2 l (hall l)⟩, h.2⟩
  · intro h
    exact ⟨⟨h.1.1, fun l _ => h.1.2 l⟩, h.2⟩

theorem assembled_valid {path : Text} {settings : Settings}
    (h : ∀ failure? ∈ settingsFailures env settings, failure? = none) :
    (assembled env path settings).validate = .ok (assembled env path settings) := by
  rw [validate_eq, unlessFailed_eq_ok_iff]
  refine ⟨fun failure? hmem => h failure? ?_, rfl⟩
  rw [settingsFailures, List.append_assoc]
  exact List.mem_append_right _ hmem

theorem ofSource_valid {source : Source} {c : Config} (h : ofSource env source = .ok c) :
    c.validate = .ok c := by
  cases source with
  | none =>
    obtain rfl := Except.ok.inj h
    rfl
  | some file =>
    rw [ofSource, ofSettings_eq, unlessFailed_eq_ok_iff] at h
    obtain ⟨hsound, rfl⟩ := h
    exact assembled_valid hsound

/-- Overriding settings bring one check more; what they leave alone is checked before. -/
theorem finish_eq {c : Config} (h : c.validate = .ok c) (overrides? : Option Overrides) :
    finish overrides? c =
      unlessFailed [overrideFailure? overrides?] ((overrides?.map c.override).getD c) := by
  cases overrides? with
  | none => rfl
  | some o =>
    obtain ⟨⟨hurl, hlabels⟩, -⟩ := validate_eq_ok_iff.mp h
    have hnone : (FormLabel.all.map (labelFailure? c.labels)).findSome? id = none := by
      rw [List.findSome?_eq_none_iff, List.forall_mem_map]
      exact fun l _ => hlabels l
    have hvalidate := validate_eq (c.override o)
    show (c.override o).validate = unlessFailed [o.baseUrl?.bind urlFailure?] (c.override o)
    rw [hvalidate]
    simp only [unlessFailed, List.findSome?_cons, List.findSome?_nil, override, hnone]
    cases o.baseUrl? with
    | none => rw [Option.getD_none, hurl]; rfl
    | some url => rfl

theorem bind_finish {c : Config} {failures : List (Option Error)}
    (h : (∀ failure? ∈ failures, failure? = none) → c.validate = .ok c)
    (overrides? : Option Overrides) :
    (unlessFailed failures c >>= finish overrides?) =
      unlessFailed (failures ++ [overrideFailure? overrides?])
        ((overrides?.map c.override).getD c) := by
  cases hfailure : failures.findSome? id with
  | some e => simp only [unlessFailed, List.findSome?_append, hfailure]; rfl
  | none =>
    have hfinish := finish_eq (h (List.findSome?_eq_none_iff.mp hfailure)) overrides?
    simp only [unlessFailed, List.findSome?_append, hfailure] at hfinish ⊢
    exact hfinish

/-! ### Loading -/

theorem outcome_of_file (s : Machine) (path : Text) (overrides? : Option Overrides) (e : Error) :
    ((settingsAt s path).map (fun settings => some (path, settings)) >>= ofSource s.env >>=
        finish overrides?) = .error e ↔
      (fileFailures s path ++ [overrideFailure? overrides?]).findSome? id = some e := by
  rw [settingsAt, fileFailures]
  cases s.files.read s.cwd path with
  | error reason =>
    show Except.error (Error.file reason) = .error e ↔ some (Error.file reason) = some e
    simp
  | ok text =>
    dsimp only
    show ((readSettings text).map (fun settings => some (path, settings)) >>= ofSource s.env >>=
      finish overrides?) = .error e ↔ _
    rw [readSettings]
    cases Settings.read? text with
    | none =>
      show Except.error Error.malformed = .error e ↔ some Error.malformed = some e
      simp
    | some settings =>
      show (ofSettings s.env path settings >>= finish overrides?) = .error e ↔ _
      rw [ofSettings_eq, bind_finish assembled_valid, unlessFailed_eq_error_iff]

theorem load_valid {path? : Option Text} {overrides? : Option Overrides} {s : Machine} {c : Config}
    (h : (source s path? >>= ofSource s.env >>= finish overrides?) = .ok c) :
    c.validate = .ok c := by
  obtain ⟨d, hbound, hfinish⟩ := exists_of_bind_eq_ok h
  obtain ⟨src, -, hsource⟩ := exists_of_bind_eq_ok hbound
  cases overrides? with
  | none =>
    obtain rfl := Except.ok.inj hfinish
    exact ofSource_valid hsource
  | some o =>
    obtain ⟨hsound, heq⟩ := validate_eq_ok_iff.mp hfinish
    rw [heq] at hsound
    exact validate_eq_ok_iff.mpr ⟨hsound, rfl⟩

/-- Loading a configuration leaves the machine as it is. A path that is asked for and leads nowhere is
not found. Else the outcome is an error exactly if a check fails, and then it is the first failure.
A configuration that is loaded has a base URL that is empty or begins in one of three ways and no
empty label. -/
theorem load_reports_first_failure (path? : Option Text) (overrides? : Option Overrides)
    (s : Machine) :
    (load (m := StateM Machine) path? overrides?).run s = (outcome s path? overrides?, s) ∧
      (∀ path, path? = some path → s.files.contains s.cwd path = false →
        outcome s path? overrides? = .error (.notFound path)) ∧
      ((∀ path, path? = some path → s.files.contains s.cwd path = true) →
        ∀ e, outcome s path? overrides? = .error e ↔
          (failures s path? overrides?).findSome? id = some e) ∧
      ∀ c, outcome s path? overrides? = .ok c →
        c.validate = .ok c ∧ AllowedUrl c.baseUrl ∧ ∀ l, c.labels.get? l ≠ some [] := by
  rw [outcome_eq]
  refine ⟨load_run path? overrides? s, ?_, ?_, ?_⟩
  · intro path hpath hmissing
    subst hpath
    rw [source, located, hmissing]
    rfl
  · intro hfound e
    have hlocated : located s path? = .ok (path?.or (nearest? s)) := by
      cases path? with
      | none => rfl
      | some path => rw [located, hfound path rfl]; rfl
    rw [source, hlocated, failures]
    cases path?.or (nearest? s) with
    | none =>
      have hfinish := finish_eq (c := {}) rfl overrides?
      show finish overrides? {} = .error e ↔ _
      rw [hfinish, unlessFailed_eq_error_iff]
      rfl
    | some path => exact outcome_of_file s path overrides? e
  · intro c hc
    have hvalid := load_valid hc
    obtain ⟨⟨hurl, hlabels⟩, -⟩ := validate_eq_ok_iff.mp hvalid
    exact ⟨hvalid, urlFailure?_eq_none_iff.mp hurl, fun l => labelFailure?_eq_none_iff.mp (hlabels l)⟩

/-- A file with a token whose variable is not set, an unknown name, a base URL that is not allowed and
an empty label, and overriding settings with such a base URL. -/
theorem load_reports_first_failure_of_many :
    let content (name url : String) : ByteArray :=
      ("[shortcodes]\ndisable = [\"Tabs\", \"" ++ name ++ "\"]\n[media]\nbase_url = \"" ++ url ++
        "\"\n[contact_form]\ntoken = \"$\x7bKEY\x7d\"\n[contact_form.labels]\nemail = \"\"\n").toUTF8
    let s (name url : String) (key? : Option Text) : Machine :=
      { files := fun place =>
          if place = [] then some .directory
          else if place = ["a.toml".toList] then some (.file (content name url))
          else none
        cwd := []
        env := fun _ => key?
        input := .empty
        random := fun _ => Vector.replicate 16 0 }
    let o : Overrides := { baseUrl? := some "o".toList }
    let path? : Option Text := some "a.toml".toList
    let key? : Option Text := some "k".toList
    outcome (s "tab" "x" none) path? (some o) = .error (.unset .token ⟨"KEY"⟩) ∧
      outcome (s "tab" "x" key?) path? (some o) = .error (.unknownShortcode "tab") ∧
      outcome (s "alert" "x" key?) path? (some o) = .error (.fault .baseUrl) ∧
      outcome (s "alert" "/" key?) path? (some o) = .error (.fault (.emptyLabel .email)) ∧
      outcome (s "alert" "/" key?) (some "b.toml".toList) (some o) = .error (.notFound "b.toml") ∧
      outcome (s "alert" "/" key?) none (some o) = .error (.fault .baseUrl) := by
  intro content s o path? key?
  have hfound : ∀ name url key? path, path? = some path →
      (s name url key?).files.contains (s name url key?).cwd path = true := by
    intro name url key? path hpath
    obtain rfl := Option.some.inj hpath
    rfl
  have hfirst : ∀ name url key? e,
      (failures (s name url key?) path? (some o)).findSome? id = some e →
        outcome (s name url key?) path? (some o) = .error e := by
    intro name url key? e h
    obtain ⟨-, -, hiff, -⟩ := load_reports_first_failure path? (some o) (s name url key?)
    exact (hiff (hfound name url key?) e).mpr h
  refine ⟨hfirst _ _ _ _ ?_, hfirst _ _ _ _ ?_, hfirst _ _ _ _ ?_, hfirst _ _ _ _ ?_, ?_, ?_⟩
  · decide +kernel
  · decide +kernel
  · decide +kernel
  · decide +kernel
  · obtain ⟨-, hmissing, -⟩ :=
      load_reports_first_failure (some "b.toml".toList) (some o) (s "alert" "/" key?)
    exact hmissing "b.toml".toList rfl (by decide +kernel)
  · obtain ⟨-, -, hiff, -⟩ := load_reports_first_failure none (some o) (s "alert" "/" key?)
    exact (hiff (by simp) _).mpr (by decide +kernel)

end Shortcode.Config
