import Mathlib.Data.List.Nodup
import Shortcode.Engine
import Shortcode.Media.Library

/-! # Records of a library

A library is built from all records of a list or from none of them: it is rejected for the first record
whose ID was used before. Since no ID is used twice, the order of the list does not show in a library. -/

namespace Shortcode

/-- The engine with the images of a library. -/
def Engine.showing (e : Engine) (l : MediaLibrary) : Engine :=
  { e with host := { e.host with image := fun id => .ok (l.image? id) } }

namespace MediaLibrary

/-- The first record whose ID an earlier record has, has this ID. -/
def FirstRepeats (records : List MediaRecord) (id : MediaId) : Prop :=
  ∃ before r after, records = before ++ r :: after ∧ r.id = id ∧
    (before.map MediaRecord.id).Nodup ∧ id ∈ before.map MediaRecord.id

variable {baseUrl : Text} {records records' : List MediaRecord} {l l' : MediaLibrary} {id : MediaId}

/-! ### Building a library -/

theorem firstRepeated?_eq_some_iff {seen : List MediaId} :
    firstRepeated? seen records = some id ↔
      ∃ before r after, records = before ++ r :: after ∧ r.id = id ∧
        (before.map MediaRecord.id).Nodup ∧ (∀ s ∈ before, s.id ∉ seen) ∧
        (id ∈ seen ∨ id ∈ before.map MediaRecord.id) := by
  induction records generalizing seen with
  | nil => simp [firstRepeated?]
  | cons r records ih =>
    rw [firstRepeated?]
    split
    · next hseen =>
      constructor
      · intro h
        obtain rfl := Option.some.inj h
        exact ⟨[], r, records, rfl, rfl, .nil, by simp, .inl hseen⟩
      · rintro ⟨before, s, after, heq, rfl, -, hnew, -⟩
        cases before with
        | nil => rw [(List.cons.inj heq).1]
        | cons t before =>
          obtain ⟨rfl, -⟩ := List.cons.inj heq
          exact absurd hseen (hnew r (List.mem_cons_self ..))
    · next hseen =>
      rw [ih]
      constructor
      · rintro ⟨before, s, after, rfl, hs, hnodup, hnew, hid⟩
        refine ⟨r :: before, s, after, rfl, hs, ?_, ?_, ?_⟩
        · rw [List.map_cons, List.nodup_cons]
          refine ⟨?_, hnodup⟩
          intro hmem
          obtain ⟨t, ht, htr⟩ := List.mem_map.mp hmem
          exact hnew t ht (htr ▸ List.mem_cons_self ..)
        · rw [List.forall_mem_cons]
          exact ⟨hseen, fun t ht hmem => hnew t ht (List.mem_cons_of_mem _ hmem)⟩
        · rw [List.map_cons, List.mem_cons]
          rcases hid with hid | hid
          · rcases List.mem_cons.mp hid with hid | hid
            · exact .inr (.inl hid)
            · exact .inl hid
          · exact .inr (.inr hid)
      · rintro ⟨before, s, after, heq, hs, hnodup, hnew, hid⟩
        cases before with
        | nil =>
          obtain ⟨rfl, -⟩ := List.cons.inj heq
          rw [List.map_nil] at hid
          rcases hid with hid | hid
          · exact absurd (hs ▸ hid) hseen
          · cases hid
        | cons t before =>
          obtain ⟨rfl, rfl⟩ := List.cons.inj heq
          rw [List.map_cons, List.nodup_cons] at hnodup
          rw [List.map_cons, List.mem_cons] at hid
          refine ⟨before, s, after, rfl, hs, hnodup.2, ?_, ?_⟩
          · intro t ht hmem
            rcases List.mem_cons.mp hmem with hsame | hmem
            · exact hnodup.1 (hsame ▸ List.mem_map_of_mem ht)
            · exact hnew t (List.mem_cons_of_mem r ht) hmem
          · rcases hid with hid | hid | hid
            · exact .inl (List.mem_cons_of_mem _ hid)
            · exact .inl (hid ▸ List.mem_cons_self ..)
            · exact .inr hid

/-- No library is built if an ID is used twice, and the error names the first one that is. -/
theorem ofRecords_eq_error_iff {e : RepeatedId} :
    ofRecords baseUrl records = .error e ↔ FirstRepeats records e.id := by
  have hfirst : FirstRepeats records e.id ↔ firstRepeated? [] records = some e.id := by
    rw [firstRepeated?_eq_some_iff]
    simp [FirstRepeats]
  rw [hfirst, ofRecords]
  split
  · next found hfound =>
    rw [hfound]
    cases e
    simp
  · next hnone => simp [hnone]

/-- A library that is built holds every record of the list, in the same order. -/
theorem ofRecords_eq_ok_iff :
    ofRecords baseUrl records = .ok l ↔ l.baseUrl = baseUrl ∧ l.records = records := by
  rw [ofRecords]
  split
  · next found hfound =>
    constructor
    · intro h
      cases h
    · rintro ⟨-, rfl⟩
      obtain ⟨before, r, after, hrecords, rfl, -, -, hmem⟩ := firstRepeated?_eq_some_iff.mp hfound
      have hdistinct := l.distinct
      rw [hrecords, List.map_append, List.map_cons, List.nodup_append] at hdistinct
      rcases hmem with hmem | hmem
      · cases hmem
      · exact absurd rfl (hdistinct.2.2 _ hmem _ (List.mem_cons_self ..))
  · constructor
    · intro h
      obtain rfl := Except.ok.inj h
      exact ⟨rfl, rfl⟩
    · rintro ⟨rfl, rfl⟩
      rfl

theorem exists_ofRecords_eq_ok_iff :
    (∃ l, ofRecords baseUrl records = .ok l) ↔ (records.map MediaRecord.id).Nodup := by
  constructor
  · rintro ⟨l, hl⟩
    obtain ⟨-, rfl⟩ := ofRecords_eq_ok_iff.mp hl
    exact l.distinct
  · intro h
    exact ⟨⟨baseUrl, records, h⟩, ofRecords_eq_ok_iff.mpr ⟨rfl, rfl⟩⟩

theorem exists_ofRecords_eq_error_iff :
    (∃ e, ofRecords baseUrl records = .error e) ↔ ¬ (records.map MediaRecord.id).Nodup := by
  have hbuilt : (∃ l, ofRecords baseUrl records = .ok l) ↔ _ := exists_ofRecords_eq_ok_iff
  rw [← hbuilt]
  cases ofRecords baseUrl records <;> simp

/-! ### Records by their IDs -/

theorem get?_eq_some_iff {r : MediaRecord} : l.get? id = some r ↔ r ∈ l.records ∧ r.id = id := by
  constructor
  · intro h
    exact ⟨List.mem_of_find?_eq_some h, by simpa using List.find?_some h⟩
  · rintro ⟨hr, rfl⟩
    obtain ⟨s, hs⟩ : ∃ s, l.get? r.id = some s := by
      refine Option.isSome_iff_exists.mp ?_
      rw [get?, List.find?_isSome]
      exact ⟨r, hr, decide_eq_true rfl⟩
    have hsame : s.id = r.id := by simpa using List.find?_some hs
    rw [hs, List.inj_on_of_nodup_map l.distinct (List.mem_of_find?_eq_some hs) hr hsame]

theorem get?_eq_none_iff : l.get? id = none ↔ id ∉ l.records.map MediaRecord.id := by
  simp [get?]

theorem get?_of_perm (h : l'.records.Perm l.records) : l'.get? = l.get? := by
  funext id
  refine Option.ext fun r => ?_
  rw [get?_eq_some_iff, get?_eq_some_iff, h.mem_iff]

theorem image?_of_perm (hbase : l'.baseUrl = l.baseUrl) (h : l'.records.Perm l.records) :
    l'.image? = l.image? := by
  have himage : l'.image = l.image := by
    funext r
    simp only [image, url, hbase]
  funext id
  rw [image?, image?, get?_of_perm h, himage]

/-- A list of records is rejected, with the first ID that is used again, if and only if an ID is used
twice. Otherwise the library holds every record, and an ID leads to the one record that has it. A list in
another order does the same, and no rendering shows the order. -/
theorem ofRecords_keeps_all_or_rejects (baseUrl : Text) (records : List MediaRecord) :
    ((∃ e, ofRecords baseUrl records = .error e) ↔ ¬ (records.map MediaRecord.id).Nodup) ∧
    (∀ e, ofRecords baseUrl records = .error e ↔ FirstRepeats records e.id) ∧
    (∀ l, ofRecords baseUrl records = .ok l →
      l.baseUrl = baseUrl ∧ l.size = records.length ∧
        (∀ id r, l.get? id = some r ↔ r ∈ records ∧ r.id = id) ∧
        ∀ id, l.get? id = none ↔ id ∉ records.map MediaRecord.id) ∧
    ∀ records', records'.Perm records →
      ((∃ e, ofRecords baseUrl records' = .error e) ↔ ∃ e, ofRecords baseUrl records = .error e) ∧
      ∀ l l', ofRecords baseUrl records = .ok l → ofRecords baseUrl records' = .ok l' →
        (∀ id, l'.get? id = l.get? id) ∧ (∀ text, l'.image? text = l.image? text) ∧
          ∀ (e : Engine) (drawn : List Text) (text : Text),
            (e.showing l').render drawn text = (e.showing l).render drawn text := by
  refine ⟨exists_ofRecords_eq_error_iff, fun _ => ofRecords_eq_error_iff, ?_, ?_⟩
  · intro l hl
    obtain ⟨hbase, rfl⟩ := ofRecords_eq_ok_iff.mp hl
    exact ⟨hbase, rfl, fun _ _ => get?_eq_some_iff, fun _ => get?_eq_none_iff⟩
  · intro records' hperm
    constructor
    · rw [exists_ofRecords_eq_error_iff, exists_ofRecords_eq_error_iff, (hperm.map _).nodup_iff]
    · intro l l' hl hl'
      obtain ⟨hbase, rfl⟩ := ofRecords_eq_ok_iff.mp hl
      obtain ⟨hbase', rfl⟩ := ofRecords_eq_ok_iff.mp hl'
      have himage := image?_of_perm (hbase'.trans hbase.symm) hperm
      refine ⟨fun id => congrFun (get?_of_perm hperm) id, congrFun himage, ?_⟩
      intro e drawn text
      rw [Engine.showing, Engine.showing, himage]

/-- Two records in either order make one library. If both of their IDs are used again then the list is
rejected for the one that is used again first. -/
theorem ofRecords_keeps_two_records :
    let pier : MediaRecord := { id := 7, name := "pier.jpg", path := "pier.jpg" }
    let dunes : MediaRecord := { id := 5, name := "dunes.jpg", path := "d.jpg", caption? := some "Dunes" }
    let l : MediaLibrary := ⟨"/m", [pier, dunes], by decide⟩
    let l' : MediaLibrary := ⟨"/m", [dunes, pier], by decide⟩
    ofRecords "/m" [pier, dunes] = .ok l ∧ ofRecords "/m" [dunes, pier] = .ok l' ∧
      [dunes, pier].Perm [pier, dunes] ∧ l.size = 2 ∧ l.get? 5 = some dunes ∧ l.get? 6 = none ∧
      (∀ id, l'.get? id = l.get? id) ∧ (∀ text, l'.image? text = l.image? text) ∧
      FirstRepeats [pier, dunes, dunes, pier] 5 ∧
      ofRecords "/m" [pier, dunes, dunes, pier] = .error ⟨5⟩ := by
  intro pier dunes l l'
  have hl : ofRecords "/m" [pier, dunes] = .ok l := rfl
  have hl' : ofRecords "/m" [dunes, pier] = .ok l' := rfl
  have hperm : [dunes, pier].Perm [pier, dunes] := .swap pier dunes []
  obtain ⟨-, -, hkeeps, horder⟩ := ofRecords_keeps_all_or_rejects "/m" [pier, dunes]
  obtain ⟨-, hsize, hget, hnone⟩ := hkeeps l hl
  obtain ⟨hgets, himages, -⟩ := (horder _ hperm).2 l l' hl hl'
  obtain ⟨-, hrejects, -⟩ := ofRecords_keeps_all_or_rejects "/m" [pier, dunes, dunes, pier]
  have hrepeats : FirstRepeats [pier, dunes, dunes, pier] 5 :=
    ⟨[pier, dunes], dunes, [pier], rfl, rfl, by decide, by decide⟩
  exact ⟨hl, hl', hperm, hsize, (hget 5 dunes).mpr ⟨by simp, rfl⟩, (hnone 6).mpr (by decide), hgets,
    himages, hrepeats, (hrejects ⟨5⟩).mpr hrepeats⟩

end MediaLibrary

end Shortcode
