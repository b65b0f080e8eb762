import Shortcode.Proofs.Engine.Galleries
import Shortcode.Proofs.Media.Records
import Shortcode.Proofs.Text.Digits
import Shortcode.Proofs.Text.Places

/-! # Lookups in a library

An ID may be looked up in any decimal spelling: with a plus sign, with leading zeros, with blanks around
it. A number that is no ID has no image; it is not cut down to one that is. The ID in an image leads back
to it, so the stage of galleries shows each of the records that are listed. What it shows may hold
shortcodes for later stages. -/

namespace Shortcode

namespace MediaId

/-- The text is a decimal spelling of the number: digits, which a plus sign may come before. -/
def Spelling (text : Text) (n : Nat) : Prop :=
  ∃ digits, (text = digits ∨ text = '+' :: digits) ∧ digits ≠ [] ∧
    (∀ c ∈ digits, c.isDigit = true) ∧ Nat.ofDigitChars 10 digits 0 = n

variable {text : Text} {id : MediaId}

theorem Spelling.unique {m n : Nat} (hm : Spelling text m) (hn : Spelling text n) : m = n := by
  have hplus : ∀ digits digits' : Text, (∀ c ∈ digits, c.isDigit = true) → digits ≠ '+' :: digits' := by
    rintro digits digits' h rfl
    exact absurd (h '+' (List.mem_cons_self ..)) (by decide)
  obtain ⟨digits, htext, -, hdigits, rfl⟩ := hm
  obtain ⟨digits', htext', -, hdigits', rfl⟩ := hn
  rcases htext with rfl | rfl <;> rcases htext' with htext' | htext'
  · rw [htext']
  · exact absurd htext' (hplus text digits' hdigits)
  · exact absurd htext'.symm (hplus digits' digits hdigits')
  · rw [(List.cons.inj htext').2]

theorem read?_eq_some_iff : read? text = some id ↔ Spelling text id.toNat := by
  have hplus : ¬ '+'.isDigit = true := by decide
  have hread : ∀ digits, (Text.numeral? 10 Text.digit? digits).bind ofNat? = some id ↔
      digits ≠ [] ∧ (∀ c ∈ digits, c.isDigit = true) ∧ Nat.ofDigitChars 10 digits 0 = id.toNat := by
    intro digits
    rw [← Text.numeral?_eq_some_iff, Option.bind_eq_some_iff]
    simp only [ofNat?_eq_some_iff, exists_eq_right']
  unfold read?
  dsimp only
  split
  · next rest =>
    rw [hread]
    constructor
    · intro h
      exact ⟨rest, .inr rfl, h⟩
    · rintro ⟨digits, rfl | hsigned, h⟩
      · exact absurd (h.2.1 '+' (List.mem_cons_self ..)) hplus
      · obtain ⟨-, rfl⟩ := List.cons.inj hsigned
        exact h
  · next hunsigned =>
    rw [hread]
    constructor
    · intro h
      exact ⟨text, .inl rfl, h⟩
    · rintro ⟨digits, rfl | hsigned, h⟩
      · exact h
      · exact absurd hsigned (hunsigned digits)

theorem spelling_text (id : MediaId) : Spelling id.text id.toNat :=
  ⟨id.text, .inl rfl, Text.decimal_ne_nil _, fun _ => Text.isDigit_of_mem_decimal,
    Nat.ofDigitChars_ten_toDigits⟩

theorem trim_text (id : MediaId) : Text.trim id.text = id.text := by
  refine Text.trim_eq_self fun c hc => ?_
  refine Text.isBlank_eq_false_of_isWordChar ?_
  simp [Text.isWordChar, Char.isAlphanum, Text.isDigit_of_mem_decimal hc]

end MediaId

namespace MediaLibrary

/-- The image is what the record says: its ID without leading zeros, its URL, an alternative text, for
which its name stands in, and a caption, which may be empty. -/
structure Resolved (l : MediaLibrary) (r : MediaRecord) (image : Image) : Prop where
  id : image.id = Nat.toDigits 10 r.id.toNat
  url : image.url = l.url r
  alt : ∀ alt, r.altText? = some alt → alt ≠ [] → image.alt = alt
  name : r.altText? = none ∨ r.altText? = some [] → image.alt = r.name
  caption : ∀ caption, r.caption? = some caption → image.caption = caption
  uncaptioned : r.caption? = none → image.caption = []

variable {l : MediaLibrary} {r : MediaRecord} {text : Text} {found : Image}

theorem resolved_image (l : MediaLibrary) (r : MediaRecord) : l.Resolved r (l.image r) where
  id := rfl
  url := rfl
  alt alt halt hne := by simp [image, halt, hne]
  name hnone := by rcases hnone with hnone | hnone <;> simp [image, hnone]
  caption caption hcaption := by simp [image, hcaption]
  uncaptioned hnone := by simp [image, hnone]

theorem resolved_iff : l.Resolved r found ↔ found = l.image r := by
  constructor
  · intro h
    have himage := l.resolved_image r
    have halt : found.alt = (l.image r).alt := by
      rcases haltText : r.altText? with _ | alt
      · rw [h.name (.inl haltText), himage.name (.inl haltText)]
      · by_cases hne : alt = []
        · rw [h.name (.inr (hne ▸ haltText)), himage.name (.inr (hne ▸ haltText))]
        · rw [h.alt alt haltText hne, himage.alt alt haltText hne]
    have hcaption : found.caption = (l.image r).caption := by
      rcases hcaption : r.caption? with _ | caption
      · rw [h.uncaptioned hcaption, himage.uncaptioned hcaption]
      · rw [h.caption caption hcaption, himage.caption caption hcaption]
    cases found
    rw [Image.mk.injEq]
    exact ⟨h.id.trans himage.id.symm, h.url.trans himage.url.symm, halt, hcaption⟩
  · rintro rfl
    exact l.resolved_image r

/-- A lookup finds the record that the text spells the ID of. -/
theorem image?_eq_some_iff : l.image? text = some found ↔
    ∃ r ∈ l.records, MediaId.Spelling (Text.trim text) r.id.toNat ∧ l.Resolved r found := by
  simp only [image?, Option.map_eq_some_iff, Option.bind_eq_some_iff, get?_eq_some_iff,
    MediaId.read?_eq_some_iff, resolved_iff]
  constructor
  · rintro ⟨r, ⟨id, hspelling, hr, rfl⟩, rfl⟩
    exact ⟨r, hr, hspelling, rfl⟩
  · rintro ⟨r, hr, hspelling, rfl⟩
    exact ⟨r, ⟨r.id, hspelling, hr, rfl⟩, rfl⟩

theorem image?_text (hr : r ∈ l.records) : l.image? r.id.text = some (l.image r) := by
  refine image?_eq_some_iff.mpr ⟨r, hr, ?_, l.resolved_image r⟩
  rw [MediaId.trim_text]
  exact r.id.spelling_text

/-! ### Galleries of listed records -/

/-- The IDs as a gallery lists them. -/
def listed (ids : List MediaId) : Text :=
  [','].intercalate (ids.map MediaId.text)

variable {ids : List MediaId} {c : Char}

theorem mem_listed (h : c ∈ listed ids) : c = ',' ∨ c.isDigit = true := by
  induction ids with
  | nil => cases h
  | cons id ids ih =>
    cases ids with
    | nil =>
      rw [listed, List.map_singleton, List.intercalate_singleton] at h
      exact .inr (Text.isDigit_of_mem_decimal h)
    | cons id' ids =>
      rw [listed, List.map_cons, List.map_cons, List.intercalate_cons_cons] at h
      rcases List.mem_append.mp h with h | h
      · rcases List.mem_append.mp h with h | h
        · exact .inr (Text.isDigit_of_mem_decimal h)
        · exact .inl (List.mem_singleton.mp h)
      · exact ih h

theorem imageIds_listed (hne : ids ≠ []) :
    Expansion.imageIds (listed ids) = ids.map MediaId.text := by
  have hcomma : ∀ piece ∈ ids.map MediaId.text, ',' ∉ piece := by
    intro piece hpiece
    obtain ⟨id, -, rfl⟩ := List.mem_map.mp hpiece
    exact Text.not_mem_decimal (by decide)
  have htrim : (ids.map MediaId.text).map Text.trim = ids.map MediaId.text := by
    rw [List.map_map]
    exact List.map_congr_left fun id _ => id.trim_text
  rw [listed, Expansion.imageIds_intercalate hcomma (by simpa using hne), listedIds, htrim,
    List.filter_eq_self]
  intro piece hpiece
  obtain ⟨id, -, rfl⟩ := List.mem_map.mp hpiece
  exact decide_eq_true (Text.decimal_ne_nil _)

/-- The tag of a gallery of listed IDs is a shortcode as a whole, and its list is read as it stands. -/
theorem grammar_listed (ids : List MediaId) :
    ∃ o : Occurrence,
      Kind.gallery.grammar (Tag.write Kind.gallery.name [("images", listed ids)]) o ∧
        Attributes.parse o.raw = ⟨[("images", listed ids)]⟩ := by
  have hnot : ∀ c : Char, c ≠ ',' → c.isDigit = false → c ∉ listed ids := by
    intro c hcomma hdigit hmem
    rcases mem_listed hmem with h | h
    · exact hcomma h
    · rw [hdigit] at h
      cases h
  have hpair : ∀ pair ∈ [(("images" : Text), listed ids)], Attributes.IsPair pair ∧ ']' ∉ pair.2 := by
    have hname : ("images" : Text) ≠ [] ∧ ("images" : Text).all Text.isWordChar = true := by decide
    rw [List.forall_mem_singleton]
    exact ⟨⟨hname.1, hname.2, hnot '"' (by decide) (by decide)⟩, hnot ']' (by decide) (by decide)⟩
  have htag := Tag.opens_write Kind.gallery.spells_name hpair
  have htail : Kind.gallery.Completes [] [] := ⟨rfl, rfl⟩
  have hpart := Kind.grammar_of_completes htag htail
  rw [List.append_nil] at hpart
  exact ⟨_, hpart, Attributes.parse_writeAll fun pair h => (hpair pair h).1⟩

theorem forall₂_images (l : MediaLibrary) (h : ∀ id ∈ ids, id ∈ l.records.map MediaRecord.id) :
    List.Forall₂ (fun id image => ∃ r ∈ l.records, r.id = id ∧ l.Resolved r image) ids
      ((ids.map MediaId.text).filterMap l.image?) := by
  induction ids with
  | nil => exact .nil
  | cons id ids ih =>
    obtain ⟨hid, hids⟩ := List.forall_mem_cons.mp h
    obtain ⟨r, hr, rfl⟩ := List.mem_map.mp hid
    rw [List.map_cons, List.filterMap_cons_some (image?_text hr)]
    exact .cons ⟨r, hr, rfl, l.resolved_image r⟩ (ih hids)

/-- A gallery of listed records shows one item for each of them. An empty list has a warning in its
place. -/
theorem renderOnly_listed (l : MediaLibrary) (ids : List MediaId) (e : Engine) (drawn : List Text) :
    ((e.showing l).renderOnly .gallery drawn
        (Tag.write Kind.gallery.name [("images", listed ids)])).text =
      if ids = [] then Warning.noImages.block
      else (Expansion.galleryNode e.host.escape (e.ids.next drawn "gallery")
        ⟨[("images", listed ids)]⟩
        (((ids.map MediaId.text).filterMap l.image?).map (Shown.ofImage e.host.escape))).write := by
  obtain ⟨o, hpart, hparse⟩ := grammar_listed ids
  have himages : (Attributes.parse o.raw).getD "images" "" = listed ids := by
    rw [hparse]
    rfl
  rw [Engine.renderOnly_of_grammar _ drawn hpart, Kind.expand]
  split
  · next hnil =>
    subst hnil
    simp only [Expansion.gallery_eq, Expansion.galleryMarkup, himages]
    rfl
  · next hne =>
    have hgiven : listed ids ≠ [] := by
      intro hnil
      have hids := imageIds_listed hne
      rw [hnil] at hids
      exact hne (List.map_eq_nil_iff.mp hids.symm)
    rw [Expansion.gallery_settle _ _ drawn himages hgiven, imageIds_listed hne, hparse]
    rfl

/-- The stages behind the gallery leave one of listed records as it is if and only if they find nothing in
it, and they find nothing if nothing in the library closes a bracket. -/
theorem render_listed (l : MediaLibrary) (ids : List MediaId) {e : Engine}
    (hon : e.switches.isOn .gallery = true) (drawn : List Text) :
    let tag := Tag.write Kind.gallery.name [("images", listed ids)]
    let staged := (e.showing l).renderOnly .gallery drawn tag
    (((e.showing l).render drawn tag).text = staged.text ↔
      ∀ k ∈ Kind.gallery.later, e.switches.isOn k = true → ¬ k.grammar.OccursIn staged.text) ∧
    (e.host.escape = Markup.escape → ']' ∉ e.ids.next drawn "gallery" →
      (∀ r ∈ l.records, ']' ∉ (l.image r).url ∧ ']' ∉ (l.image r).alt ∧ ']' ∉ (l.image r).caption) →
      (e.showing l).render drawn tag = staged) := by
  intro tag staged
  obtain ⟨o, hpart, -⟩ := grammar_listed ids
  have hearlier := Engine.not_occursIn_earlier (.inr rfl) hpart
  refine ⟨Engine.render_text_eq_iff (e := e.showing l) hon hearlier, ?_⟩
  intro hescape hid hrecords
  have himage : ∀ id image, (e.showing l).host.image? id = some image →
      ']' ∉ image.url ∧ ']' ∉ image.alt ∧ ']' ∉ image.caption := by
    intro id image hfound
    obtain ⟨r, hr, -, hresolved⟩ := image?_eq_some_iff.mp hfound
    rw [resolved_iff.mp hresolved]
    exact hrecords r hr
  exact Engine.render_eq_renderOnly (e := e.showing l) hon hearlier fun k _ _ =>
    (e.showing l).not_occursIn_gallery hescape hpart hid himage k

/-- A lookup always answers, and it finds a record if and only if the text, without blanks around it, is a
decimal spelling of a 64-bit number that is the ID of the record. Larger numbers find nothing. The ID in
an image finds that image. The stage of the gallery shows one item for each of the records that are
listed, and a rendering shows what this stage does unless later stages find shortcodes in it. -/
theorem lookup_accepts_spellings (l : MediaLibrary) :
    (∀ (e : Engine) (text : Text), ∃ image?, (e.showing l).host.image text = .ok image? ∧
      ∀ image, image? = some image ↔
        ∃ n r, MediaId.Spelling (Text.trim text) n ∧ n < UInt64.size ∧ r ∈ l.records ∧ r.id.toNat = n ∧
          l.Resolved r image) ∧
    (∀ text n, MediaId.Spelling (Text.trim text) n → UInt64.size ≤ n → l.image? text = none) ∧
    (∀ r ∈ l.records, ∀ image, l.Resolved r image → l.image? image.id = some image) ∧
    ∀ ids : List MediaId, (∀ id ∈ ids, id ∈ l.records.map MediaRecord.id) →
      ∃ images,
        List.Forall₂ (fun id image => ∃ r ∈ l.records, r.id = id ∧ l.Resolved r image) ids images ∧
        ∀ (e : Engine) (drawn : List Text),
          let tag := Tag.write Kind.gallery.name [("images", listed ids)]
          let staged := (e.showing l).renderOnly .gallery drawn tag
          staged.text =
            (if ids = [] then Warning.noImages.block
            else (Expansion.galleryNode e.host.escape (e.ids.next drawn "gallery")
              ⟨[("images", listed ids)]⟩ (images.map (Shown.ofImage e.host.escape))).write) ∧
          (e.switches.isOn .gallery = true →
            (((e.showing l).render drawn tag).text = staged.text ↔
              ∀ k ∈ Kind.gallery.later, e.switches.isOn k = true →
                ¬ k.grammar.OccursIn staged.text) ∧
            (e.host.escape = Markup.escape → ']' ∉ e.ids.next drawn "gallery" →
              (∀ r ∈ l.records, ']' ∉ (l.image r).url ∧ ']' ∉ (l.image r).alt ∧
                ']' ∉ (l.image r).caption) →
              (e.showing l).render drawn tag = staged)) := by
  refine ⟨?_, ?_, ?_, ?_⟩
  · intro e text
    refine ⟨l.image? text, rfl, fun image => ?_⟩
    rw [image?_eq_some_iff]
    constructor
    · rintro ⟨r, hr, hspelling, hresolved⟩
      exact ⟨_, r, hspelling, r.id.toNat_lt_size, hr, rfl, hresolved⟩
    · rintro ⟨n, r, hspelling, -, hr, rfl, hresolved⟩
      exact ⟨r, hr, hspelling, hresolved⟩
  · intro text n hspelling hlarge
    refine Option.eq_none_iff_forall_ne_some.mpr fun image hfound => ?_
    obtain ⟨r, -, hid, -⟩ := image?_eq_some_iff.mp hfound
    have hsmall := r.id.toNat_lt_size
    rw [hid.unique hspelling] at hsmall
    exact absurd hlarge (Nat.not_le_of_lt hsmall)
  · intro r hr image hresolved
    rw [resolved_iff.mp hresolved]
    exact image?_text hr
  · intro ids hids
    refine ⟨_, l.forall₂_images hids, fun e drawn => ⟨l.renderOnly_listed ids e drawn, ?_⟩⟩
    exact fun hon => l.render_listed ids hon drawn

/-- The largest ID in a spelling with a plus sign, leading zeros and blanks around it, the number behind
it, and a gallery that shows a record twice. -/
theorem lookup_accepts_spellings_of_largest :
    let tower : MediaRecord :=
      { id := 18446744073709551615, name := "tower.jpg", path := "/t.jpg", altText? := some [] }
    let pier : MediaRecord := { id := 7, name := "pier.jpg", path := "p.jpg", caption? := some "[Pier" }
    let l : MediaLibrary := ⟨"/m/", [tower, pier], by decide⟩
    let shown : Image := ⟨"18446744073709551615", "/m/t.jpg", "tower.jpg", []⟩
    let e : Engine := { host := { token := [] }, ids := .sequential }
    let ids : List MediaId := [18446744073709551615, 7, 18446744073709551615]
    let tag : Text := "[gallery images=\"18446744073709551615,7,18446744073709551615\"]"
    MediaId.Spelling (Text.trim "\t+00018446744073709551615\n") 18446744073709551615 ∧
      l.Resolved tower shown ∧
      (∃ image?, (e.showing l).host.image "\t+00018446744073709551615\n" = .ok image? ∧
        image? = some shown) ∧
      MediaId.Spelling (Text.trim "18446744073709551616") UInt64.size ∧
      l.image? "18446744073709551616" = none ∧ l.image? shown.id = some shown ∧
      (∀ id ∈ ids, id ∈ l.records.map MediaRecord.id) ∧
      ∃ images,
        List.Forall₂ (fun id image => ∃ r ∈ l.records, r.id = id ∧ l.Resolved r image) ids images ∧
        ((e.showing l).render [] tag).text =
          (Expansion.galleryNode Markup.escape "gallery-1" ⟨[("images", listed ids)]⟩
            (images.map (Shown.ofImage Markup.escape))).write := by
  intro tower pier l shown e ids tag
  have hspelling : MediaId.Spelling (Text.trim "\t+00018446744073709551615\n") 18446744073709551615 :=
    ⟨"00018446744073709551615", .inr (by decide), by decide, List.all_eq_true.mp (by decide),
      by decide⟩
  have hlarge : MediaId.Spelling (Text.trim "18446744073709551616") UInt64.size :=
    ⟨"18446744073709551616", .inl (by decide), by decide, List.all_eq_true.mp (by decide),
      by decide⟩
  have hshown : shown = l.image tower := by decide
  have hresolved : l.Resolved tower shown := resolved_iff.mpr hshown
  have htower : tower ∈ l.records := List.mem_cons_self ..
  have hids : ∀ id ∈ ids, id ∈ l.records.map MediaRecord.id := by simp [ids, l, pier, tower]
  obtain ⟨hlookup, hwrap, hback, hgallery⟩ := l.lookup_accepts_spellings
  obtain ⟨image?, himage, hfound⟩ := hlookup e "\t+00018446744073709551615\n"
  obtain ⟨images, himages, hrender⟩ := hgallery ids hids
  obtain ⟨hstaged, hall⟩ := hrender e []
  refine ⟨hspelling, hresolved, ⟨image?, himage, ?_⟩, hlarge, hwrap _ _ hlarge (by decide),
    hback tower htower shown hresolved, hids, images, himages, ?_⟩
  · exact (hfound shown).mpr ⟨_, tower, hspelling, by decide, htower, by decide, hresolved⟩
  · have htag : tag = Tag.write Kind.gallery.name [("images", listed ids)] := by decide
    rw [htag, (hall rfl).2 rfl (by decide) (by decide), hstaged]
    rfl

/-- The captions of two listed records are the tags of tabs, and the stage behind the gallery puts a
warning in the place of what stands between them. -/
theorem gallery_loses_item_to_tabs :
    ¬ ∀ (l : MediaLibrary) (ids : List MediaId) (e : Engine) (drawn : List Text),
      (∀ id ∈ ids, id ∈ l.records.map MediaRecord.id) → e.host.escape = Markup.escape →
        e.switches.isOn .gallery = true →
        Text.placesOf "<div class=\"gallery-item\">"
          ((e.showing l).render drawn
            (Tag.write Kind.gallery.name [("images", listed ids)])).text = ids.length := by
  intro hclaim
  let front : MediaRecord := { id := 1, name := "a.jpg", path := "a.jpg", caption? := some "[tabs]" }
  let back : MediaRecord := { id := 2, name := "b.jpg", path := "b.jpg", caption? := some "[/tabs]" }
  let l : MediaLibrary := ⟨[], [front, back], by decide⟩
  let e : Engine := { host := { token := [] }, ids := .sequential }
  have hids : ∀ id ∈ [(1 : MediaId), 2], id ∈ l.records.map MediaRecord.id := by
    simp [l, front, back]
  have hplaces : Text.placesOf "<div class=\"gallery-item\">"
      ((e.showing l).render [] (Tag.write Kind.gallery.name [("images", listed [1, 2])])).text = 1 := by
    decide +kernel
  have hclaimed := hclaim l [1, 2] e [] hids rfl rfl
  rw [hplaces] at hclaimed
  cases hclaimed

end MediaLibrary

end Shortcode
