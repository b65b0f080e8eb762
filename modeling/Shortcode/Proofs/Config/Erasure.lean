import Mathlib.Data.List.Basic
import Shortcode.Config.Load

/-! # Documents with one setting erased

Two settings files differ in the text of one setting if they agree once that text is erased. Erasing
it before a document is read does the same as erasing it from the settings that are read. -/

namespace Shortcode

namespace Config.Field

/-- The table that a setting stands in. -/
def table : Field → Text
  | baseUrl => "media"
  | actionUrl => "contact_form"
  | token => "contact_form"

def key : Field → Text
  | baseUrl => "base_url"
  | actionUrl => "action_url"
  | token => "token"

/-- The keys of the table, in the order in which an array gives their values. -/
def keys : Field → List Text
  | baseUrl => ["manifest", "base_url"]
  | actionUrl => ["action_url", "token", "labels"]
  | token => ["action_url", "token", "labels"]

end Config.Field

namespace Settings

open Config (Field)
open Toml (Value Entries)

def value (s : Settings) : Field → Text
  | .baseUrl => s.baseUrl
  | .actionUrl => s.actionUrl
  | .token => s.token

/-- The settings with the text of one of them left empty. -/
def erase (f : Field) (s : Settings) : Settings :=
  match f with
  | .baseUrl => { s with baseUrl := [] }
  | .actionUrl => { s with actionUrl := [] }
  | .token => { s with token := [] }

def emptied : Value → Value
  | .string _ => .string []
  | v => v

/-- A table, or an array of its values in the order of the keys, with the text at a key left empty. -/
def emptiedAt (keys : List Text) (key : Text) : Value → Value
  | .table origin entries =>
    .table origin (entries.map fun (k, v) => (k, if k = key then emptied v else v))
  | .array items => .array (items.mapIdx fun i v => if keys[i]? = some key then emptied v else v)
  | v => v

/-- A document with the text of one setting left empty, where it gives one. -/
def eraseIn (f : Field) (root : Entries) : Entries :=
  root.map fun (t, v) => (t, if t = f.table then emptiedAt f.keys f.key v else v)

section Groups

variable {α : Type} {fields : List (Text × Setter α)} {adjust : α → α}

theorem mem_of_lookup {k : Text} {set : Setter α} (h : fields.lookup k = some set) :
    (k, set) ∈ fields := by
  induction fields with
  | nil => cases h
  | cons field fields ih =>
    obtain ⟨l, set'⟩ := field
    rw [List.lookup_cons] at h
    split at h
    · rename_i heq
      obtain rfl := eq_of_beq heq
      obtain rfl := Option.some.inj h
      exact List.mem_cons_self ..
    · exact List.mem_cons_of_mem _ (ih h)

theorem fromEntries_map {change : Text → Value → Value}
    (hset : ∀ field ∈ fields, ∀ a v,
      field.2 (adjust a) (change field.1 v) = (field.2 a v).map adjust)
    (hother : ∀ k, fields.lookup k = none → ∀ v, change k v = v) (entries : Entries) (a : α) :
    group.fromEntries fields (entries.map fun (k, v) => (k, change k v)) (adjust a) =
      (group.fromEntries fields entries a).map adjust := by
  induction entries generalizing a with
  | nil => rfl
  | cons entry entries ih =>
    obtain ⟨k, v⟩ := entry
    simp only [List.map_cons, group.fromEntries]
    cases hlookup : fields.lookup k with
    | none =>
      rw [hother k hlookup]
      dsimp only
      split
      · exact ih a
      · rfl
    | some set =>
      have hstep : set (adjust a) (change k v) = (set a v).map adjust :=
        hset (k, set) (mem_of_lookup hlookup) a v
      dsimp only
      rw [hstep]
      cases set a v with
      | none => rfl
      | some b => exact ih b

theorem fromItems_mapIdx {change : Nat → Value → Value}
    (hset : ∀ (i : Nat) (k : Text) (set : Setter α), fields[i]? = some (k, set) →
      ∀ a v, set (adjust a) (change i v) = (set a v).map adjust) (items : List Value) (a : α) :
    group.fromItems fields (items.mapIdx change) (adjust a) =
      (group.fromItems fields items a).map adjust := by
  induction fields generalizing items change a with
  | nil => cases items <;> rfl
  | cons field fields ih =>
    obtain ⟨k, set⟩ := field
    cases items with
    | nil => rfl
    | cons v items =>
      have hstep : set (adjust a) (change 0 v) = (set a v).map adjust := hset 0 k set rfl a v
      simp only [List.mapIdx_cons, group.fromItems, hstep]
      cases set a v with
      | none => rfl
      | some b => exact ih (fun i l set' hfield => hset (i + 1) l set' hfield) items b

theorem mapIdx_eq_self {change : Nat → Value → Value} {items : List Value}
    (h : ∀ i, ∀ v ∈ items, change i v = v) : items.mapIdx change = items := by
  apply List.ext_getElem?
  intro i
  rw [List.getElem?_mapIdx]
  cases hitem : items[i]? with
  | none => rfl
  | some v => exact congrArg some (h i v (List.mem_of_getElem? hitem))

theorem text_emptied {set : α → Text → α} (h : ∀ a t, set (adjust a) [] = adjust (set a t)) (a : α)
    (v : Value) : text set (adjust a) (emptied v) = (text set a v).map adjust := by
  cases v with
  | string t => exact congrArg some (h a t)
  | _ => rfl

theorem text_adjust {set : α → Text → α} (h : ∀ a t, set (adjust a) t = adjust (set a t)) (a : α)
    (v : Value) : text set (adjust a) v = (text set a v).map adjust := by
  cases v with
  | string t => exact congrArg some (h a t)
  | _ => rfl

/-- Reading a group commutes with emptying a text at one of its keys if every setter does. -/
theorem group_emptiedAt {key : Text} (hkey : (fields.lookup key).isSome = true)
    (hset : ∀ field ∈ fields, ∀ a v,
      field.2 (adjust a) (if field.1 = key then emptied v else v) = (field.2 a v).map adjust)
    (a : α) (v : Value) :
    group fields (adjust a) (emptiedAt (fields.map Prod.fst) key v) =
      (group fields a v).map adjust := by
  have hplace : ∀ (i : Nat) (k : Text) (set : Setter α), fields[i]? = some (k, set) → ∀ a v,
      set (adjust a) (if (fields.map Prod.fst)[i]? = some key then emptied v else v) =
        (set a v).map adjust := by
    intro i k set hfield a v
    have hstep := hset (k, set) (List.mem_of_getElem? hfield) a v
    rw [List.getElem?_map, hfield]
    simpa using hstep
  cases v with
  | table origin entries =>
    have hother : ∀ k, fields.lookup k = none →
        ∀ v, (if k = key then emptied v else v) = v := by
      intro k hk v
      apply if_neg
      intro heq
      rw [heq] at hk
      rw [hk] at hkey
      cases hkey
    exact fromEntries_map hset hother entries a
  | array items => exact fromItems_mapIdx hplace items a
  | tables items =>
    have hitems := fromItems_mapIdx hplace (items.map (.table .header)) a
    rw [mapIdx_eq_self] at hitems
    · exact hitems
    · intro i v hv
      obtain ⟨entries, -, rfl⟩ := List.mem_map.mp hv
      exact ite_self _
  | datetime => rfl
  | string _ => rfl
  | integer _ => rfl
  | float _ => rfl
  | boolean _ => rfl

/-- A group is read alike if no setter touches what is adjusted. -/
theorem group_adjust
    (hset : ∀ field ∈ fields, ∀ a v, field.2 (adjust a) v = (field.2 a v).map adjust)
    (a : α) (v : Value) : group fields (adjust a) v = (group fields a v).map adjust := by
  have hitems : ∀ items : List Value, group.fromItems fields items (adjust a) =
      (group.fromItems fields items a).map adjust := by
    intro items
    have hread := fromItems_mapIdx (fun i k set hfield => hset (k, set) (List.mem_of_getElem? hfield))
      items a
    rwa [mapIdx_eq_self fun _ _ _ => rfl] at hread
  cases v with
  | table origin entries =>
    have hread := fromEntries_map hset (fun _ _ _ => rfl) entries a
    rwa [List.map_id'] at hread
  | array items => exact hitems items
  | tables items => exact hitems (items.map (.table .header))
  | datetime => rfl
  | string _ => rfl
  | integer _ => rfl
  | float _ => rfl
  | boolean _ => rfl

end Groups

/-! ### Settings files -/

theorem setShortcodes_erase (f : Field) (s : Settings) (v : Value) :
    setShortcodes (s.erase f) v = (setShortcodes s v).map (erase f) := by
  have hdisable : ∀ (s : Settings) disable,
      { s.erase f with disable } = erase f { s with disable } := by
    intro s disable
    cases f <;> rfl
  have hswitch : ∀ (s : Settings) k on, { s.erase f with switches := (s.erase f).switches.set k on } =
      erase f { s with switches := s.switches.set k on } := by
    intro s k on
    cases f <;> rfl
  have hentries : ∀ (entries : Entries) (s : Settings),
      setShortcodes.fromEntries entries (s.erase f) =
        (setShortcodes.fromEntries entries s).map (erase f) := by
    intro entries
    induction entries with
    | nil => intro s; rfl
    | cons entry entries ih =>
      intro s
      obtain ⟨key, v⟩ := entry
      simp only [setShortcodes.fromEntries, hdisable, hswitch, ih]
      split
      · cases v with
        | array items =>
          dsimp only
          cases texts? items <;> rfl
        | _ => rfl
      · split
        · rfl
        · rfl
        · split <;> rfl
  cases v with
  | table origin entries => exact hentries entries s
  | datetime => rfl
  | _ => rfl

theorem setLabels_erase (f : Field) (s : Settings) (v : Value) :
    setLabels (s.erase f) v = (setLabels s v).map (erase f) := by
  simp only [setLabels, Option.map_map]
  cases f <;> rfl

theorem setMedia_erase (f : Field) (s : Settings) (v : Value) :
    setMedia (s.erase f) (if ("media" : Text) = f.table then emptiedAt f.keys f.key v else v) =
      (setMedia s v).map (erase f) := by
  cases f with
  | baseUrl =>
    rw [if_pos (by rfl)]
    refine group_emptiedAt (by rfl) (List.forall_mem_cons.mpr ⟨?_,
      List.forall_mem_singleton.mpr ?_⟩) s v
    · intro s v
      rw [if_neg (by decide)]
      exact text_adjust (by intro s t; rfl) s v
    · intro s v
      rw [if_pos (by rfl)]
      exact text_emptied (by intro s t; rfl) s v
  | actionUrl =>
    rw [if_neg (by decide)]
    refine group_adjust (List.forall_mem_cons.mpr ⟨?_, List.forall_mem_singleton.mpr ?_⟩) s v
    · exact text_adjust (by intro s t; rfl)
    · exact text_adjust (by intro s t; rfl)
  | token =>
    rw [if_neg (by decide)]
    refine group_adjust (List.forall_mem_cons.mpr ⟨?_, List.forall_mem_singleton.mpr ?_⟩) s v
    · exact text_adjust (by intro s t; rfl)
    · exact text_adjust (by intro s t; rfl)

theorem setContactForm_erase (f : Field) (s : Settings) (v : Value) :
    setContactForm (s.erase f)
        (if ("contact_form" : Text) = f.table then emptiedAt f.keys f.key v else v) =
      (setContactForm s v).map (erase f) := by
  cases f with
  | baseUrl =>
    rw [if_neg (by decide)]
    refine group_adjust (List.forall_mem_cons.mpr ⟨?_, List.forall_mem_cons.mpr ⟨?_,
      List.forall_mem_singleton.mpr ?_⟩⟩) s v
    · exact text_adjust (by intro s t; rfl)
    · exact text_adjust (by intro s t; rfl)
    · exact setLabels_erase .baseUrl
  | actionUrl =>
    rw [if_pos (by rfl)]
    refine group_emptiedAt (by rfl) (List.forall_mem_cons.mpr ⟨?_, List.forall_mem_cons.mpr ⟨?_,
      List.forall_mem_singleton.mpr ?_⟩⟩) s v
    · intro s v
      rw [if_pos (by rfl)]
      exact text_emptied (by intro s t; rfl) s v
    · intro s v
      rw [if_neg (by decide)]
      exact text_adjust (by intro s t; rfl) s v
    · intro s v
      rw [if_neg (by decide)]
      exact setLabels_erase .actionUrl s v
  | token =>
    rw [if_pos (by rfl)]
    refine group_emptiedAt (by rfl) (List.forall_mem_cons.mpr ⟨?_, List.forall_mem_cons.mpr ⟨?_,
      List.forall_mem_singleton.mpr ?_⟩⟩) s v
    · intro s v
      rw [if_neg (by decide)]
      exact text_adjust (by intro s t; rfl) s v
    · intro s v
      rw [if_pos (by rfl)]
      exact text_emptied (by intro s t; rfl) s v
    · intro s v
      rw [if_neg (by decide)]
      exact setLabels_erase .token s v

/-- The settings of a document with one text erased are those of the document with it erased. -/
theorem ofEntries?_eraseIn (f : Field) (root : Entries) :
    ofEntries? (eraseIn f root) = (ofEntries? root).map (erase f) := by
  have hempty : erase f {} = ({} : Settings) := by
    cases f <;> rfl
  let fields : List (Text × Setter Settings) :=
    [("shortcodes", setShortcodes), ("media", setMedia), ("contact_form", setContactForm)]
  let change (t : Text) (v : Value) : Value := if t = f.table then emptiedAt f.keys f.key v else v
  have hset : ∀ field ∈ fields, ∀ s v,
      field.2 (erase f s) (change field.1 v) = (field.2 s v).map (erase f) := by
    refine List.forall_mem_cons.mpr ⟨?_, List.forall_mem_cons.mpr ⟨setMedia_erase f,
      List.forall_mem_singleton.mpr (setContactForm_erase f)⟩⟩
    intro s v
    have hkept : change "shortcodes" v = v := if_neg (by cases f <;> decide)
    exact (congrArg (setShortcodes (erase f s)) hkept).trans (setShortcodes_erase f s v)
  have hother : ∀ t, fields.lookup t = none → ∀ v, change t v = v := by
    intro t ht v
    apply if_neg
    intro heq
    rw [heq] at ht
    cases f <;> cases ht
  have hread := fromEntries_map hset hother root {}
  rw [hempty] at hread
  exact hread

end Settings

end Shortcode
