import Shortcode.Proofs.Engine.Locality
import Shortcode.Proofs.Engine.WrittenTags
import Shortcode.Proofs.Expansion.Elements

/-! # Galleries

A gallery shows the images that its list leads to, in the order of the list and once per repetition. A
piece that is blank, that nobody knows, or whose lookup fails leaves no trace in it. That a lookup
failed is nowhere to be seen in a rendering: an unknown ID does the same. -/

namespace Shortcode

/-! ### Images that are found -/

/-- The images that the pieces of a list lead to, in order. -/
inductive Host.Finds (h : Host) : List Text → List Image → Prop where
  | nil : Finds h [] []
  | blank {piece : Text} {pieces : List Text} {images : List Image}
      (hblank : Text.trim piece = []) (hrest : Finds h pieces images) :
      Finds h (piece :: pieces) images
  | unknown {piece : Text} {pieces : List Text} {images : List Image}
      (hid : Text.trim piece ≠ []) (hlookup : h.image (Text.trim piece) = .ok none)
      (hrest : Finds h pieces images) : Finds h (piece :: pieces) images
  | failed {piece : Text} {pieces : List Text} {images : List Image} {error : LookupError}
      (hid : Text.trim piece ≠ []) (hlookup : h.image (Text.trim piece) = .error error)
      (hrest : Finds h pieces images) : Finds h (piece :: pieces) images
  | found {piece : Text} {pieces : List Text} {images : List Image} {image : Image}
      (hid : Text.trim piece ≠ []) (hlookup : h.image (Text.trim piece) = .ok (some image))
      (hrest : Finds h pieces images) : Finds h (piece :: pieces) (image :: images)

/-- The IDs in the pieces of a list. -/
def listedIds (pieces : List Text) : List Text :=
  (pieces.map Text.trim).filter (· ≠ [])

section

variable {piece : Text} {pieces : List Text}

theorem listedIds_cons_of_blank (h : Text.trim piece = []) :
    listedIds (piece :: pieces) = listedIds pieces := by
  simp [listedIds, h]

theorem listedIds_cons (h : Text.trim piece ≠ []) :
    listedIds (piece :: pieces) = Text.trim piece :: listedIds pieces := by
  simp [listedIds, h]

/-- What a list leads to is fixed by the lookups of its IDs. -/
theorem Host.finds_iff {h : Host} {images : List Image} :
    h.Finds pieces images ↔ images = (listedIds pieces).filterMap h.image? := by
  constructor
  · intro hfinds
    induction hfinds with
    | nil => rfl
    | blank hblank _ ih => rw [listedIds_cons_of_blank hblank, ih]
    | unknown hid hlookup _ ih | failed hid hlookup _ ih | found hid hlookup _ ih =>
      rw [listedIds_cons hid, List.filterMap_cons, image?, hlookup, ih]
  · rintro rfl
    induction pieces with
    | nil => exact .nil
    | cons piece pieces ih =>
      by_cases hid : Text.trim piece = []
      · rw [listedIds_cons_of_blank hid]
        exact .blank hid ih
      · rw [listedIds_cons hid, List.filterMap_cons, image?]
        match hlookup : h.image (Text.trim piece) with
        | .ok none => exact .unknown hid hlookup ih
        | .error error => exact .failed hid hlookup ih
        | .ok (some image) => exact .found hid hlookup ih

end

theorem Expansion.imageIds_intercalate {pieces : List Text} (hpieces : ∀ piece ∈ pieces, ',' ∉ piece)
    (hne : pieces ≠ []) : imageIds ([','].intercalate pieces) = listedIds pieces := by
  rw [imageIds, List.splitOn_intercalate ',' hpieces hne, listedIds]
  refine List.filter_congr ?_
  intro id _
  cases id <;> rfl

/-! ### Failed lookups -/

/-- Only a found image counts. -/
theorem Host.image?_eq_some_iff {h : Host} {id : Text} {found : Image} :
    h.image? id = some found ↔ h.image id = .ok (some found) := by
  unfold image?
  split
  · next image? hlookup => simp [hlookup]
  · next error hlookup => simp [hlookup]

theorem Kind.expand_of_image? {h h' : Host} (himage : h'.image? = h.image?)
    (htoken : h'.token = h.token) (hurl : h'.url = h.url) (hlabel : h'.label = h.label) (k : Kind)
    (o : Occurrence) : k.expand h' o = k.expand h o := by
  cases k with
  | button | alert | tabs | accordion | countdown => rfl
  | gallery => simp only [expand, Expansion.gallery_eq, Expansion.galleryMarkup, himage]
  | contactForm =>
    simp only [expand, Expansion.contactForm, Host.askUrl, Host.askToken, Host.askLabel, htoken,
      hurl, hlabel]

namespace Engine

variable (e : Engine)

/-- A lookup only counts by what it finds. -/
theorem render_of_image? {h : Host} (himage : h.image? = e.host.image?)
    (hescape : h.escape = e.host.escape) (htoken : h.token = e.host.token)
    (hurl : h.url = e.host.url) (hlabel : h.label = e.host.label) (drawn : List Text) (text : Text) :
    { e with host := h }.render drawn text = e.render drawn text := by
  have hadvance : { e with host := h }.advance = e.advance := by
    funext r k
    refine advance_congr ?_ r
    intro drawn o
    rw [k.expand_of_image? himage htoken hurl hlabel o, hescape]
  rw [render, render, hadvance]

/-- A gallery with a list of images becomes a container of the images that the list leads to, and no
other items make the same container. No warning comes of it, and every ID is asked for once per
repetition. Where a lookup fails instead of finding nothing, or the other way round, every rendering
of the engine stays as it is. -/
theorem render_gallery_shows_found (drawn : List Text) :
    (∀ {part before after : Text} {o : Occurrence} {pieces : List Text},
      Kind.gallery.grammar part o → Cut.Clear Kind.gallery.grammar before (part ++ after) →
      (Attributes.parse o.raw).getD "images" "" = [','].intercalate pieces →
      [','].intercalate pieces ≠ [] → (∀ piece ∈ pieces, ',' ∉ piece) →
      ∃ images, (∀ images', e.host.Finds pieces images' ↔ images' = images) ∧
        let items := images.map (Shown.ofImage e.host.escape)
        let container := fun items => (Expansion.galleryNode e.host.escape
          (e.ids.next drawn "gallery") (Attributes.parse o.raw) items).write
        let behind := e.renderOnly .gallery ("gallery" :: drawn) after
        e.renderOnly .gallery drawn (before ++ (part ++ after)) =
          { text := before ++ (container items ++ behind.text)
            warnings := behind.warnings
            calls := .id "gallery" :: (listedIds pieces).map .image ++ behind.calls
            drawn := behind.drawn } ∧
        ((∀ text, '"' ∉ e.host.escape text ∧ '<' ∉ e.host.escape text) →
          ∀ items', (∀ s ∈ items', s.Fits) → container items' = container items →
            items' = items)) ∧
    ∀ image : Text → Except LookupError (Option Image),
      (∀ id found, image id = .ok (some found) ↔ e.host.image id = .ok (some found)) →
      ∀ text, { e with host := { e.host with image := image } }.render drawn text =
        e.render drawn text := by
  constructor
  · intro part before after o pieces hpart hbefore himages hgiven hpieces
    have hne : pieces ≠ [] := by
      rintro rfl
      exact hgiven rfl
    refine ⟨_, fun _ => Host.finds_iff, ?_, ?_⟩
    · have hrender := e.renderOnly_append hpart drawn hbefore
      have hsettle := Expansion.gallery_settle e.host e.ids drawn himages hgiven
      rw [Expansion.imageIds_intercalate hpieces hne] at hsettle
      rw [Kind.expand, hsettle] at hrender
      exact hrender
    · intro hescape items' hitems' hsame
      refine Expansion.galleryNode_inj hitems' ?_ hsame
      intro s hs
      obtain ⟨image, -, rfl⟩ := List.mem_map.mp hs
      exact Shown.fits_ofImage hescape image
  · intro image hsame text
    let h : Host := { e.host with image := image }
    have himage : h.image? = e.host.image? := by
      funext id
      refine Option.ext fun found => ?_
      rw [Host.image?_eq_some_iff, Host.image?_eq_some_iff]
      exact hsame id found
    exact e.render_of_image? himage rfl rfl rfl rfl drawn text

/-- A list with a blank piece, a failing and an unknown ID between images, and a repetition. It does not
matter which of the two IDs fails. -/
theorem render_gallery_shows_mixed_list :
    let pier : Image := ⟨"1", "/a?x=1&y=2", "A \"pier\"", []⟩
    let dunes : Image := ⟨"2", "/b", "[b]", "<Dunes>"⟩
    let lookup (failing id : Text) : Except LookupError (Option Image) :=
      if id = "1" then .ok (some pier) else if id = "2" then .ok (some dunes)
      else if id = failing then .error ⟨id, "timeout"⟩ else .ok none
    let e : Engine := { host := { image := lookup "3", token := [] }, ids := .sequential }
    let part : Text := "[gallery images=\" 2,1,\t,3,4 ,2\"]"
    let o : Occurrence := ⟨"images=\" 2,1,\t,3,4 ,2\"", []⟩
    let pieces : List Text := [" 2", "1", "\t", "3", "4 ", "2"]
    let shownDunes : Text :=
      "<div class=\"gallery-item\"><img src=\"/b\" alt=\"[b]\" class=\"img-fluid\">" ++
        "<div class=\"gallery-caption\">&lt;Dunes&gt;</div></div>"
    Kind.gallery.grammar part o ∧ Cut.Clear Kind.gallery.grammar "a] " (part ++ " b") ∧
      (Attributes.parse o.raw).getD "images" "" = [','].intercalate pieces ∧
      [','].intercalate pieces ≠ [] ∧ (∀ piece ∈ pieces, ',' ∉ piece) ∧
      (∀ id found, lookup "4" id = .ok (some found) ↔ e.host.image id = .ok (some found)) ∧
      e.renderOnly .gallery [] ("a] " ++ (part ++ " b")) =
        { text := "a] <div id=\"gallery-1\" class=\"content-shortcodes-gallery gallery-grid\" " ++
            "data-columns=\"3\">" ++ shownDunes ++ "<div class=\"gallery-item\">" ++
            "<img src=\"/a?x=1&amp;y=2\" alt=\"A &quot;pier&quot;\" class=\"img-fluid\"></div>" ++
            shownDunes ++ "</div> b"
          calls := [.id "gallery", .image "2", .image "1", .image "3", .image "4", .image "2"]
          drawn := ["gallery"] } ∧
      ∀ text, { e with host := { e.host with image := lookup "4" } }.render [] text =
        e.render [] text := by
  intro pier dunes lookup e part o pieces shownDunes
  have hpart : Kind.gallery.grammar part o :=
    (Kind.reads_occurrence .gallery).grammar_of_read (by decide +kernel)
  have hbefore := Kind.gallery.clear_of_not_mem (by decide : '[' ∉ ("a] " : Text)) (part ++ " b")
  have himages : (Attributes.parse o.raw).getD "images" "" = [','].intercalate pieces := by
    decide +kernel
  have hgiven : [','].intercalate pieces ≠ [] := by decide
  have hpieces : ∀ piece ∈ pieces, ',' ∉ piece := by decide
  have hsame : ∀ id found, lookup "4" id = .ok (some found) ↔ e.host.image id = .ok (some found) := by
    intro id found
    simp only [e, lookup]
    by_cases hfirst : id = "1"
    · rw [if_pos hfirst, if_pos hfirst]
    · by_cases hsecond : id = "2"
      · rw [if_neg hfirst, if_neg hfirst, if_pos hsecond, if_pos hsecond]
      · rw [if_neg hfirst, if_neg hfirst, if_neg hsecond, if_neg hsecond]
        split <;> split <;> simp
  obtain ⟨hshown, hfailures⟩ := e.render_gallery_shows_found []
  obtain ⟨images, hfinds, hrender, -⟩ := hshown hpart hbefore himages hgiven hpieces
  have hfound : e.host.Finds pieces [dunes, pier, dunes] :=
    .found (by decide) rfl <| .found (by decide) rfl <| .blank (by decide) <|
      .failed (by decide) rfl <| .unknown (by decide) rfl <| .found (by decide) rfl .nil
  obtain rfl := (hfinds _).mp hfound
  refine ⟨hpart, hbefore, himages, hgiven, hpieces, hsame, hrender.trans ?_, hfailures _ hsame⟩
  decide +kernel

end Engine

end Shortcode
