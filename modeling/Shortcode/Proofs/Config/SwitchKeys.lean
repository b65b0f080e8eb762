import Shortcode.Proofs.Config.Erasure

/-! # Switches by their keys

The tables of switches in a document give the position of a kind's switch under the key of the kind.
Where a key is given more than once, the last value counts. Nothing else in a document moves a
switch. -/

namespace Shortcode

theorem Switches.ofLabel?_eq_some_iff {key : Text} {k : Kind} :
    ofLabel? key = some k ↔ label k = key := by
  constructor
  · intro h
    simpa using List.find?_some h
  · rintro rfl
    cases k <;> decide

namespace Settings

open Toml (Value Entries)

/-- The entries of a table of switches. -/
def entriesOf : Value → Entries
  | .table _ entries => entries
  | _ => []

/-- The entries of the tables of switches in a document. -/
def switchEntries (root : Entries) : Entries :=
  root.flatMap fun (key, v) => if key = "shortcodes" then entriesOf v else []

/-- The position that the value of a switch gives. -/
def position : Value → Bool
  | .boolean on => on
  | _ => true

/-- The position that some entries give for the switch of a kind. -/
def given? (entries : Entries) (k : Kind) : Option Bool :=
  (entries.reverse.lookup (Switches.label k)).map position

variable {s s' : Settings} {entries : Entries}

theorem given?_append (front rest : Entries) (k : Kind) :
    given? (front ++ rest) k = (given? rest k).or (given? front k) := by
  rw [given?, List.reverse_append, List.lookup_append, Option.map_or]
  rfl

theorem given?_cons (key : Text) (v : Value) (rest : Entries) (k : Kind) :
    given? ((key, v) :: rest) k =
      (given? rest k).or (if Switches.label k = key then some (position v) else none) := by
  have hone : given? [(key, v)] k =
      if Switches.label k = key then some (position v) else none := by
    show ([(key, v)].lookup (Switches.label k)).map position = _
    rw [List.lookup_cons]
    by_cases h : Switches.label k = key
    · rw [if_pos h, beq_iff_eq.mpr h]
      rfl
    · rw [if_neg h, beq_eq_false_iff_ne.mpr h]
      rfl
  rw [← List.singleton_append, given?_append, hone]

theorem given?_getD_true {k : Kind} :
    (given? entries k).getD true = true ↔
      entries.reverse.lookup (Switches.label k) ≠ some (.boolean false) := by
  rw [given?]
  cases entries.reverse.lookup (Switches.label k) with
  | none => simp
  | some v =>
    cases v with
    | boolean on => cases on <;> simp [position]
    | _ => simp [position]

theorem isOn_fromEntries (h : setShortcodes.fromEntries entries s = some s') (k : Kind) :
    s'.switches.isOn k = (given? entries k).getD (s.switches.isOn k) := by
  induction entries generalizing s with
  | nil =>
    obtain rfl := Option.some.inj h
    rfl
  | cons entry entries ih =>
    obtain ⟨key, v⟩ := entry
    rw [given?_cons, Option.getD_or]
    simp only [setShortcodes.fromEntries] at h
    split at h
    · next hdisable =>
      have hlabel : Switches.label k ≠ key := by
        rw [hdisable]
        cases k <;> decide
      cases v with
      | array items =>
        obtain ⟨disable, -, hrest⟩ := Option.bind_eq_some_iff.mp h
        rw [ih hrest, if_neg hlabel]
        rfl
      | _ => cases h
    · cases hkind : Switches.ofLabel? key with
      | none =>
        have hlabel : Switches.label k ≠ key := by
          intro heq
          rw [Switches.ofLabel?_eq_some_iff.mpr heq] at hkind
          cases hkind
        rw [hkind] at h
        dsimp only at h
        split at h
        · rw [ih h, if_neg hlabel]
          rfl
        · cases h
      | some l =>
        obtain rfl := Switches.ofLabel?_eq_some_iff.mp hkind
        rw [hkind] at h
        cases v with
        | boolean on =>
          have hlabel : Switches.label k = Switches.label l ↔ k = l := by
            cases k <;> cases l <;> decide
          rw [ih h, Switches.isOn_set]
          by_cases heq : k = l <;> simp [hlabel, heq, position]
        | _ => cases h

theorem isOn_setShortcodes {v : Value} (h : setShortcodes s v = some s') (k : Kind) :
    s'.switches.isOn k = (given? (entriesOf v) k).getD (s.switches.isOn k) := by
  cases v with
  | table origin entries => exact isOn_fromEntries h k
  | datetime =>
    obtain rfl := Option.some.inj h
    rfl
  | _ => cases h

/-- A group is read without a change of what no setter of it changes. -/
theorem group_keeps {α β : Type} {fields : List (Text × Setter α)} {kept : α → β}
    (adjust : β → α → α) (hself : ∀ a, adjust (kept a) a = a) (hkept : ∀ b a, kept (adjust b a) = b)
    (hset : ∀ b, ∀ field ∈ fields, ∀ a v, field.2 (adjust b a) v = (field.2 a v).map (adjust b))
    {a a' : α} {v : Value} (h : group fields a v = some a') : kept a' = kept a := by
  have hread := group_adjust (hset (kept a)) a v
  rw [hself, h, Option.map_some] at hread
  rw [Option.some.inj hread, hkept]

theorem switches_setMedia {v : Value} (h : setMedia s v = some s') : s'.switches = s.switches := by
  refine group_keeps (fun switches s => { s with switches }) (fun _ => rfl) (fun _ _ => rfl) ?_ h
  intro switches
  refine List.forall_mem_cons.mpr ⟨?_, List.forall_mem_singleton.mpr ?_⟩
  · exact text_adjust fun _ _ => rfl
  · exact text_adjust fun _ _ => rfl

theorem switches_setContactForm {v : Value} (h : setContactForm s v = some s') :
    s'.switches = s.switches := by
  refine group_keeps (fun switches s => { s with switches }) (fun _ => rfl) (fun _ _ => rfl) ?_ h
  intro switches
  refine List.forall_mem_cons.mpr ⟨?_, List.forall_mem_cons.mpr ⟨?_,
    List.forall_mem_singleton.mpr ?_⟩⟩
  · exact text_adjust fun _ _ => rfl
  · exact text_adjust fun _ _ => rfl
  · intro s v
    simp only [setLabels, Option.map_map]
    rfl

theorem isOn_tables {root : Entries}
    (h : group.fromEntries [("shortcodes", setShortcodes), ("media", setMedia),
      ("contact_form", setContactForm)] root s = some s') (k : Kind) :
    s'.switches.isOn k = (given? (switchEntries root) k).getD (s.switches.isOn k) := by
  induction root generalizing s with
  | nil =>
    obtain rfl := Option.some.inj h
    rfl
  | cons entry root ih =>
    obtain ⟨key, v⟩ := entry
    have hcons : switchEntries ((key, v) :: root) =
        (if key = "shortcodes" then entriesOf v else []) ++ switchEntries root :=
      List.flatMap_cons
    rw [hcons, given?_append, Option.getD_or]
    rw [group.fromEntries] at h
    split at h
    · next set hlookup =>
      obtain ⟨next, hset, hrest⟩ := Option.bind_eq_some_iff.mp h
      rw [ih hrest]
      have hmem := mem_of_lookup hlookup
      simp only [List.mem_cons, Prod.mk.injEq, List.not_mem_nil, or_false] at hmem
      rcases hmem with ⟨rfl, rfl⟩ | ⟨rfl, rfl⟩ | ⟨rfl, rfl⟩
      · rw [if_pos rfl, isOn_setShortcodes hset]
      · rw [if_neg (by decide), switches_setMedia hset]
        rfl
      · rw [if_neg (by decide), switches_setContactForm hset]
        rfl
    · next hlookup =>
      have hkey : key ≠ "shortcodes" := by
        rintro rfl
        cases hlookup
      split at h
      · rw [ih h, if_neg hkey]
        rfl
      · cases h

/-- A kind is on in the settings of a document unless the last value under its key is `false`. -/
theorem isOn_ofEntries? {root : Entries} (h : ofEntries? root = some s) (k : Kind) :
    s.switches.isOn k = true ↔
      (switchEntries root).reverse.lookup (Switches.label k) ≠ some (.boolean false) := by
  have hon : ({} : Settings).switches.isOn k = true := by
    cases k <;> rfl
  rw [isOn_tables h, hon, given?_getD_true]

end Settings

end Shortcode
