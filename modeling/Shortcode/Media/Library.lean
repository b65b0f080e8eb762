import Shortcode.Host
import Shortcode.Media.Record
import Shortcode.Media.Url

/-! # Media libraries

A library holds records with different IDs and the base URL of their files. It answers the lookups
of galleries. -/

namespace Shortcode

/-- Media records, no two of them with one ID. -/
structure MediaLibrary where
  baseUrl : Text
  records : List MediaRecord
  distinct : (records.map MediaRecord.id).Nodup

structure RepeatedId where
  id : MediaId
deriving DecidableEq, Repr

def RepeatedId.message (e : RepeatedId) : Text :=
  "Duplicate media ID " ++ e.id.text ++ " in manifest"

namespace MediaLibrary

/-- The first ID that an earlier record has or that is listed in `seen`. -/
def firstRepeated? : List MediaId → List MediaRecord → Option MediaId
  | _, [] => none
  | seen, r :: rest => if r.id ∈ seen then some r.id else firstRepeated? (r.id :: seen) rest

theorem nodup_of_firstRepeated?_eq_none {seen : List MediaId} {records : List MediaRecord}
    (h : firstRepeated? seen records = none) :
    (records.map MediaRecord.id).Nodup ∧ ∀ r ∈ records, r.id ∉ seen := by
  induction records generalizing seen with
  | nil => simp
  | cons r rest ih =>
    simp only [firstRepeated?] at h
    split at h
    · contradiction
    · rename_i hr
      obtain ⟨hnodup, hseen⟩ := ih h
      refine ⟨?_, ?_⟩
      · rw [List.map_cons, List.nodup_cons]
        refine ⟨fun hmem => ?_, hnodup⟩
        obtain ⟨s, hs, hid⟩ := List.mem_map.1 hmem
        exact hseen s hs (hid ▸ List.mem_cons_self)
      · intro s hs
        rcases List.mem_cons.1 hs with rfl | hs
        · exact hr
        · exact fun hmem => hseen s hs (List.mem_cons_of_mem _ hmem)

/-- The library of some records, unless two of them have one ID. -/
def ofRecords (baseUrl : Text) (records : List MediaRecord) : Except RepeatedId MediaLibrary :=
  match h : firstRepeated? [] records with
  | some id => .error ⟨id⟩
  | none => .ok ⟨baseUrl, records, (nodup_of_firstRepeated?_eq_none h).1⟩

def size (l : MediaLibrary) : Nat :=
  l.records.length

def get? (l : MediaLibrary) (id : MediaId) : Option MediaRecord :=
  l.records.find? (·.id = id)

def url (l : MediaLibrary) (r : MediaRecord) : Text :=
  Url.join l.baseUrl r.path

/-- A record as an image. Its name stands in for an alternative text that is missing or empty. -/
def image (l : MediaLibrary) (r : MediaRecord) : Image where
  id := r.id.text
  url := l.url r
  alt := match r.altText? with
    | some alt => if alt.isEmpty then r.name else alt
    | none => r.name
  caption := r.caption?.getD []

/-- The image with an ID, where blanks around the ID do not count. What is no ID has no image. -/
def image? (l : MediaLibrary) (id : Text) : Option Image :=
  ((MediaId.read? (Text.trim id)).bind l.get?).map l.image

end MediaLibrary

end Shortcode
