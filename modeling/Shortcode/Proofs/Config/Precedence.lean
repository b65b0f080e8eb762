import Mathlib.Data.List.Forall2
import Shortcode.Proofs.Config.Checks
import Shortcode.Proofs.Config.Erasure

/-! # Settings that are overridden

A file is expanded and checked before overriding settings are put into its configuration. So the text
of an overridden setting still counts where it fails a check of the file; where it passes, the outcome
is the same whatever the file gives. -/

namespace Shortcode.Config

/-- What overriding settings give for a setting of the file. -/
def Overrides.value? (o : Overrides) : Field → Option Text
  | .baseUrl => o.baseUrl?
  | .actionUrl => o.actionUrl?
  | .token => none

/-- The checks of a file that look at one setting alone: its references to variables, and for the
base URL how it begins. -/
def ownFailures (env : Environment) (f : Field) (settings : Settings) : List (Option Error) :=
  expansionFailure? env f (settings.value f) ::
    if f = .baseUrl then [urlFailure? (expanded env settings.baseUrl)] else []

/-- Those of a document; there are none where it makes no settings. -/
def failuresOf (env : Environment) (f : Field) (root : Toml.Entries) : List (Option Error) :=
  ((Settings.ofEntries? root).map (ownFailures env f)).getD []

/-- The settings of a run come from the file at a path, which holds a TOML document. -/
structure ReadsFrom (s : Machine) (path? : Option Text) (path : Text) (root : Toml.Entries) :
    Prop where
  located : located s path? = .ok (some path)
  read : ∃ text, s.files.read s.cwd path = .ok text ∧ Toml.read? text = some root

variable {env : Environment} {f : Field} {s : Machine} {path? : Option Text} {path : Text}
  {root : Toml.Entries}

theorem ReadsFrom.outcome_eq (h : ReadsFrom s path? path root) (o : Overrides) :
    outcome s path? (some o) =
      match Settings.ofEntries? root with
      | none => .error .malformed
      | some settings =>
        unlessFailed (settingsFailures s.env settings ++ [overrideFailure? (some o)])
          ((assembled s.env path settings).override o) := by
  obtain ⟨hlocated, text, hread, hroot⟩ := h
  have hsettings : settingsAt s path =
      (Settings.ofEntries? root).elim (.error .malformed) .ok := by
    simp only [settingsAt, hread]
    show readSettings text = _
    rw [readSettings, Settings.read?, hroot, Option.bind_some]
    cases Settings.ofEntries? root <;> rfl
  rw [Config.outcome_eq, source, hlocated]
  dsimp only
  rw [hsettings]
  cases Settings.ofEntries? root with
  | none => rfl
  | some settings =>
    show (ofSettings s.env path settings >>= finish (some o)) = _
    rw [ofSettings_eq, bind_finish assembled_valid]
    rfl

theorem override_assembled_erase {o : Overrides} (h : (o.value? f).isSome = true)
    (settings : Settings) :
    (assembled env path (settings.erase f)).override o =
      (assembled env path settings).override o := by
  cases f with
  | baseUrl =>
    obtain ⟨url, hurl⟩ := Option.isSome_iff_exists.mp h
    have hurl : o.baseUrl? = some url := hurl
    simp only [override, hurl, Option.getD_some, assembled, Settings.erase]
  | actionUrl =>
    obtain ⟨url, hurl⟩ := Option.isSome_iff_exists.mp h
    have hurl : o.actionUrl? = some url := hurl
    simp only [override, hurl, Option.getD_some, assembled, Settings.erase]
  | token => cases h

/-! ### Failures that are left out -/

/-- Failures of which some that belong to `own` are left out. -/
def LeavesOut (own : List (Option Error)) : List (Option Error) → List (Option Error) → Prop :=
  List.Forall₂ fun failure? kept? => kept? = failure? ∨ kept? = none ∧ failure? ∈ own

theorem LeavesOut.refl (own failures : List (Option Error)) : LeavesOut own failures failures := by
  apply List.forall₂_same.mpr
  intro failure? _
  exact .inl rfl

theorem LeavesOut.first {own failures kept : List (Option Error)} (h : LeavesOut own failures kept) :
    failures.findSome? id = kept.findSome? id ∨
      ∃ e, some e ∈ own ∧ failures.findSome? id = some e := by
  induction h with
  | nil => exact .inl rfl
  | @cons failure? kept? failures kept hhead _ ih =>
    simp only [List.findSome?_cons, id]
    rcases hhead with rfl | ⟨rfl, hown⟩
    · cases kept? with
      | none => exact ih
      | some e => exact .inl rfl
    · cases failure? with
      | none => exact ih
      | some e => exact .inr ⟨e, hown, rfl⟩

theorem LeavesOut.append {own xs xs' ys ys' : List (Option Error)} (h : LeavesOut own xs xs')
    (h' : LeavesOut own ys ys') : LeavesOut own (xs ++ ys) (xs' ++ ys') :=
  List.rel_append h h'

/-- Without the text of a setting, the checks of the setting alone do not fail, and no other check
notices. -/
theorem settingsFailures_erase (env : Environment) (f : Field) (settings : Settings) :
    LeavesOut (ownFailures env f settings) (settingsFailures env settings)
      (settingsFailures env (settings.erase f)) := by
  have hkept : ∀ {own failures : List (Option Error)}, LeavesOut own failures failures :=
    fun {own failures} => LeavesOut.refl own failures
  have hleft : ∀ {own failures kept : List (Option Error)} {failure? : Option Error},
      failure? ∈ own → LeavesOut own failures kept →
        LeavesOut own (failure? :: failures) (none :: kept) :=
    fun hown h => .cons (.inr ⟨rfl, hown⟩) h
  cases f with
  | baseUrl =>
    refine LeavesOut.append (LeavesOut.append (LeavesOut.append ?_ hkept) ?_) hkept
    · exact hleft (List.mem_cons_self ..) hkept
    · exact hleft (List.mem_cons_of_mem _ (List.mem_cons_self ..)) hkept
  | actionUrl =>
    refine LeavesOut.append (LeavesOut.append (LeavesOut.append ?_ hkept) hkept) hkept
    exact .cons (.inl rfl) (hleft (List.mem_cons_self ..) hkept)
  | token =>
    refine LeavesOut.append (LeavesOut.append (LeavesOut.append ?_ hkept) hkept) hkept
    exact .cons (.inl rfl) (.cons (.inl rfl) (hleft (List.mem_cons_self ..) hkept))

/-! ### Two files -/

/-- The outcome for a document whose overridden setting is erased. -/
def erasedOutcome (env : Environment) (path : Text) (o : Overrides) (f : Field)
    (root : Toml.Entries) : Except Error Config :=
  match Settings.ofEntries? (Settings.eraseIn f root) with
  | none => .error .malformed
  | some settings =>
    unlessFailed (settingsFailures env settings ++ [overrideFailure? (some o)])
      ((assembled env path settings).override o)

theorem ReadsFrom.outcome_eq_or (h : ReadsFrom s path? path root) {o : Overrides}
    (hgiven : (o.value? f).isSome = true) :
    outcome s path? (some o) = erasedOutcome s.env path o f root ∨
      ∃ e, some e ∈ failuresOf s.env f root ∧ outcome s path? (some o) = .error e := by
  rw [h.outcome_eq o, erasedOutcome, Settings.ofEntries?_eraseIn, failuresOf]
  cases Settings.ofEntries? root with
  | none => exact .inl rfl
  | some settings =>
    have hleft := LeavesOut.append (settingsFailures_erase s.env f settings)
      (.refl _ [overrideFailure? (some o)])
    dsimp only [Option.map_some, Option.getD_some]
    rw [override_assembled_erase hgiven]
    rcases hleft.first with hsame | ⟨e, hown, hfirst⟩
    · rw [unlessFailed, unlessFailed, hsame]
      exact .inl rfl
    · exact .inr ⟨e, hown, unlessFailed_eq_error_iff.mpr hfirst⟩

/-- Two files at one path that differ in the text of an overridden setting have the same outcome,
unless the text of one of them fails a check that the file has to pass by itself; then that is the
error. -/
theorem overridden_setting_only_counts_by_failing {s s' : Machine} {path? : Option Text}
    {path : Text} {root root' : Toml.Entries} {f : Field} {o : Overrides}
    (hread : ReadsFrom s path? path root) (hread' : ReadsFrom s' path? path root')
    (henv : s'.env = s.env) (hdiffer : Settings.eraseIn f root = Settings.eraseIn f root')
    (hgiven : (o.value? f).isSome = true) :
    ((∀ failure? ∈ failuresOf s.env f root ++ failuresOf s.env f root', failure? = none) →
      outcome s path? (some o) = outcome s' path? (some o)) ∧
    (outcome s path? (some o) = outcome s' path? (some o) ∨
      (∃ e, some e ∈ failuresOf s.env f root ∧ outcome s path? (some o) = .error e) ∨
      ∃ e, some e ∈ failuresOf s.env f root' ∧ outcome s' path? (some o) = .error e) := by
  have hsame : erasedOutcome s.env path o f root = erasedOutcome s'.env path o f root' := by
    rw [henv, erasedOutcome, erasedOutcome, hdiffer]
  have hor := hread.outcome_eq_or hgiven
  have hor' := hread'.outcome_eq_or hgiven
  rw [← hsame, henv] at hor'
  have hgeneral : outcome s path? (some o) = outcome s' path? (some o) ∨
      (∃ e, some e ∈ failuresOf s.env f root ∧ outcome s path? (some o) = .error e) ∨
      ∃ e, some e ∈ failuresOf s.env f root' ∧ outcome s' path? (some o) = .error e := by
    rcases hor with hor | hfails
    · rcases hor' with hor' | hfails'
      · exact .inl (hor.trans hor'.symm)
      · exact .inr (.inr hfails')
    · exact .inr (.inl hfails)
  refine ⟨?_, hgeneral⟩
  intro hpass
  rcases hgeneral with hequal | ⟨e, hfails, -⟩ | ⟨e, hfails, -⟩
  · exact hequal
  · cases hpass _ (List.mem_append_left _ hfails)
  · cases hpass _ (List.mem_append_right _ hfails)

/-! ### A file that gives a base URL -/

/-- A file that switches off tabs and gives a base URL. -/
def baseUrlContent (url : String) : Text :=
  "[shortcodes]\ndisable = [\"tabs\"]\n[media]\nbase_url = \"".toList ++ url.toList ++ "\"\n".toList

/-- What the file says. -/
def baseUrlRoot (url : String) : Toml.Entries :=
  [("shortcodes".toList, .table .header [("disable".toList, .array [.string "tabs".toList])]),
    ("media".toList, .table .header [("base_url".toList, .string url.toList)])]

/-- The machine that holds it, where one variable is set. -/
def baseUrlMachine (url : String) : Machine where
  files place :=
    if place = [] then some .directory
    else if place = ["a.toml".toList] then some (.file (String.ofList (baseUrlContent url)).toUTF8)
    else none
  cwd := []
  env name := if name = "HOST".toList then some "h.test".toList else none
  input := .empty
  random _ := Vector.replicate 16 0

theorem readsFrom_baseUrlMachine {url : String}
    (h : Toml.read? (baseUrlContent url) = some (baseUrlRoot url)) :
    ReadsFrom (baseUrlMachine url) (some "a.toml".toList) "a.toml".toList (baseUrlRoot url) := by
  have hentry : (baseUrlMachine url).files.entry [] "a.toml".toList =
      .ok (.file (String.ofList (baseUrlContent url)).toUTF8) := rfl
  refine ⟨?_, baseUrlContent url, ?_, h⟩
  · rw [located]
    apply if_pos
    show ((baseUrlMachine url).files.entry [] "a.toml".toList).toOption.isSome = true
    rw [hentry]
    rfl
  · show ((baseUrlMachine url).files.entry [] "a.toml".toList >>= _) = _
    rw [hentry]
    exact FileTree.decode_toUTF8 (baseUrlContent url)

/-- A base URL with a reference and one without, under overriding settings that give another. -/
theorem overridden_base_url_with_reference :
    let s := baseUrlMachine
    let path : Text := "a.toml".toList
    let o : Overrides := { baseUrl? := some "/m".toList }
    let first := "https://$\x7bHOST\x7d/"
    let second := "/old"
    ReadsFrom (s first) (some path) path (baseUrlRoot first) ∧
      ReadsFrom (s second) (some path) path (baseUrlRoot second) ∧
      Settings.eraseIn .baseUrl (baseUrlRoot first) = Settings.eraseIn .baseUrl (baseUrlRoot second) ∧
      outcome (s first) (some path) (some o) = outcome (s second) (some path) (some o) := by
  intro s path o first second
  have hread : ReadsFrom (s first) (some path) path (baseUrlRoot first) :=
    readsFrom_baseUrlMachine (by unfold first baseUrlContent baseUrlRoot; rfl)
  have hread' : ReadsFrom (s second) (some path) path (baseUrlRoot second) :=
    readsFrom_baseUrlMachine (by unfold second baseUrlContent baseUrlRoot; rfl)
  have hdiffer : Settings.eraseIn .baseUrl (baseUrlRoot first) =
      Settings.eraseIn .baseUrl (baseUrlRoot second) := rfl
  obtain ⟨hsame, -⟩ := overridden_setting_only_counts_by_failing hread hread' rfl hdiffer (o := o) rfl
  exact ⟨hread, hread', hdiffer, hsame (by decide +kernel)⟩

/-- A reference that has no value fails before the setting that holds it is overridden. -/
theorem overridden_reference_still_fails :
    ¬ ∀ (s s' : Machine) (path? : Option Text) (path : Text) (root root' : Toml.Entries) (f : Field)
        (o : Overrides), ReadsFrom s path? path root → ReadsFrom s' path? path root' →
      s'.env = s.env → Settings.eraseIn f root = Settings.eraseIn f root' →
      (o.value? f).isSome = true →
        outcome s path? (some o) = outcome s' path? (some o) := by
  intro hclaim
  have hread : Toml.read? (baseUrlContent "$\x7bCDN\x7d") = some (baseUrlRoot "$\x7bCDN\x7d") := by
    unfold baseUrlContent baseUrlRoot
    rfl
  have hread' : Toml.read? (baseUrlContent "/") = some (baseUrlRoot "/") := by
    unfold baseUrlContent baseUrlRoot
    rfl
  have hsame := hclaim _ _ _ _ _ _ .baseUrl { baseUrl? := some "/m".toList }
    (readsFrom_baseUrlMachine hread) (readsFrom_baseUrlMachine hread') rfl rfl rfl
  revert hsame
  decide +kernel

end Shortcode.Config
