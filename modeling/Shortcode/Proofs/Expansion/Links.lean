import Mathlib.Data.List.Nodup
import Shortcode.Proofs.Markup.Links

/-! # Links in expansions

The element IDs that an expansion writes, and the references between them. All of them are derived
from the ID that the widget draws; warnings, buttons and alerts have none. -/

namespace Shortcode

namespace Expansion

open Markup

variable (escape : Text → Text) (id : Text)

/-- The ID of the pane of a tab. -/
def paneId (id : Text) (i : Nat) : Text :=
  id ++ (("-tab-" : Text) ++ Text.decimal i)

/-- The ID of the toggle of a tab. -/
def toggleId (id : Text) (i : Nat) : Text :=
  id ++ (("-tab-" : Text) ++ (Text.decimal i ++ ("-tab" : Text)))

/-- The ID of the panel of an accordion. -/
def itemId (id : Text) (i : Nat) : Text :=
  id ++ (("-item-" : Text) ++ Text.decimal i)

/-- The ID of the heading over a panel. -/
def headingId (id : Text) (i : Nat) : Text :=
  ("heading-" : Text) ++ itemId id i

/-- The ID of a field of a contact form. -/
def fieldId (id field : Text) : Text :=
  id ++ '-' :: field

variable {escape id}

/-- The links of numbered parts. -/
def numberedLinks (links : Nat → Links) (count : Nat) : Links :=
  .join ((List.range count).map links)

theorem numbered_links {item : Nat → Child → Template} {links : Nat → Links}
    (h : ∀ i child, Template.HasLinks escape id (item i child) (links i)) (children : List Child) :
    Template.HasLinks escape id (numbered item children)
      (numberedLinks links children.length) := by
  refine Template.HasLinks.flatten ?_ rfl
  rw [List.range_eq_range']
  generalize 0 = start
  induction children generalizing start with
  | nil => exact .nil
  | cons child children ih => exact .cons (h start child) (ih (start + 1))

/-- Parts without links. -/
theorem flatten_links_none {ts : List Template}
    (h : ∀ t ∈ ts, Template.HasLinks escape id t {}) : Template.HasLinks escape id ts.flatten {} := by
  have hparts : List.Forall₂ (Template.HasLinks escape id) ts (List.replicate ts.length {}) := by
    induction ts with
    | nil => exact .nil
    | cons t ts ih =>
      exact .cons (h t (List.mem_cons_self ..)) (ih fun u hu => h u (List.mem_cons_of_mem t hu))
  refine Template.HasLinks.flatten hparts ?_
  have hnone : ∀ field : Links → List Text, field {} = [] →
      (List.replicate ts.length {}).flatMap field = [] := by
    intro field hfield
    refine List.flatMap_eq_nil_iff.mpr ?_
    intro l hl
    rw [List.eq_of_mem_replicate hl, hfield]
  simp only [Links.join, hnone]

/-! ### The templates -/

theorem parts_links (i : Nat) (child : Child) :
    Template.HasLinks escape id (tabToggle i child)
        { ids := [toggleId id i], targets := ['#' :: paneId id i] } ∧
      Template.HasLinks escape id (tabPane i child)
        { ids := [paneId id i], panels := [paneId id i] } ∧
      Template.HasLinks escape id (accordionItem i child)
        { ids := [headingId id i, itemId id i], panels := [itemId id i],
          targets := ['#' :: itemId id i], parents := ['#' :: id] } := by
  -- A value is read as its parts with the empty text behind the last.
  have hpane : paneId id i = id ++ (("-tab-" : Text) ++ (Text.decimal i ++ [])) := by
    rw [List.append_nil, paneId]
  have hitem : itemId id i = id ++ (("-item-" : Text) ++ (Text.decimal i ++ [])) := by
    rw [List.append_nil, itemId]
  have hid : ('#' :: id : Text) = '#' :: (id ++ []) := by
    rw [List.append_nil]
  unfold toggleId headingId
  rw [hpane, hitem, hid]
  simp only [Template.HasLinks, tabToggle, tabPane, accordionItem, Template.reading, List.foldl_cons,
    Reading.piece_number]
  generalize Text.decimal i = digits
  repeat rw [String.toList_ofList]
  by_cases hi : i = 0
  · simp only [if_pos hi]
    refine ⟨?_, ?_, ?_⟩
    all_goals cbv
  · simp only [if_neg hi]
    refine ⟨?_, ?_, ?_⟩
    all_goals cbv

theorem galleryItem_links (image : Image) : Template.HasLinks escape id (galleryItem image) {} := by
  simp only [Template.HasLinks, galleryItem]
  repeat rw [String.toList_ofList]
  split <;> cbv

theorem warning_links (w : Warning) : Template.HasLinks escape id (warning w).template {} := by
  unfold template Warning.block Warning.message
  repeat rw [String.toList_ofList]
  cases w <;> cbv

theorem button_links (o : Occurrence) : Template.HasLinks escape id (button o).template {} := by
  simp only [Template.HasLinks, button, template]
  -- Which values the attributes give plays no part.
  generalize (Attributes.parse o.raw).getD = value
  repeat rw [String.toList_ofList]
  split <;> cbv

theorem alert_links (o : Occurrence) : Template.HasLinks escape id (alert o).template {} := by
  simp only [Template.HasLinks, alert, template]
  generalize (Attributes.parse o.raw).getD = value
  repeat rw [String.toList_ofList]
  split <;> cbv

/-- The links of a gallery or a countdown: nothing refers to its ID. -/
def loneLinks (id : Text) : Links :=
  { ids := [id] }

/-- The links of tabs. -/
def tabsLinks (id : Text) (count : Nat) : Links where
  ids := (id ++ ("-nav" : Text)) :: ((List.range count).map (toggleId id) ++
    (id ++ ("-content" : Text)) :: (List.range count).map (paneId id))
  panels := (List.range count).map (paneId id)
  targets := (List.range count).map ('#' :: paneId id ·)

/-- The links of an accordion. -/
def accordionLinks (id : Text) (count : Nat) : Links where
  ids := id :: (List.range count).flatMap fun i => [headingId id i, itemId id i]
  panels := (List.range count).map (itemId id)
  targets := (List.range count).map ('#' :: itemId id ·)
  parents := (List.range count).map fun _ => '#' :: id

/-- The links of a labelled field. -/
def fieldLinks (id field : Text) : Links where
  ids := [fieldId id field]
  labelled := [fieldId id field]

/-- The links of a contact form. -/
def contactFormLinks (id : Text) : Links where
  ids := [id, fieldId id "name", fieldId id "email", fieldId id "message"]
  labelled := [fieldId id "name", fieldId id "email", fieldId id "message"]

theorem gallery_links (h : Host) (o : Occurrence) :
    (gallery h o).stem? = none ∧ Template.HasLinks escape id (gallery h o).template {} ∨
      (gallery h o).stem? ≠ none ∧ Template.HasLinks escape id (gallery h o).template (loneLinks id) := by
  simp only [gallery_eq, galleryMarkup]
  generalize (Attributes.parse o.raw).getD = value
  split
  · exact .inl ⟨rfl, warning_links .noImages⟩
  · have hid : loneLinks id = { ids := [id ++ []] } := by
      rw [List.append_nil, loneLinks]
    refine .inr ⟨Option.some_ne_none _, Template.HasLinks.flatten (.cons (b := loneLinks id) ?_
      (.cons (flatten_links_none ?_) (.cons (b := {}) ?_ .nil))) rfl⟩
    · rw [hid]
      repeat rw [String.toList_ofList]
      cbv
    · intro t ht
      obtain ⟨image, -, rfl⟩ := List.mem_map.mp ht
      exact galleryItem_links image
    · repeat rw [String.toList_ofList]
      cbv

theorem flatMap_none {α : Type} (xs : List α) : xs.flatMap (fun _ => ([] : List Text)) = [] :=
  List.flatMap_eq_nil_iff.mpr fun _ _ => rfl

theorem tabs_links (o : Occurrence) :
    (tabs o).stem? = none ∧ Template.HasLinks escape id (tabs o).template {} ∨
      (tabs o).stem? ≠ none ∧
        ∃ count, Template.HasLinks escape id (tabs o).template (tabsLinks id count) := by
  simp only [tabs]
  generalize o.children "tab" = children
  generalize (Attributes.parse o.raw).getD = value
  cases children with
  | nil => exact .inl ⟨rfl, warning_links .noTabs⟩
  | cons child children =>
    refine .inr ⟨Option.some_ne_none _, (child :: children).length, Template.HasLinks.flatten
      (.cons (b := { ids := [id ++ ("-nav" : Text)] }) ?_ (.cons (numbered_links (fun i child => (parts_links i child).1) _)
        (.cons (b := { ids := [id ++ ("-content" : Text)] }) ?_
          (.cons (numbered_links (fun i child => (parts_links i child).2.1) _) (.cons (b := {}) ?_ .nil))))) ?_⟩
    · repeat rw [String.toList_ofList]
      cbv
    · repeat rw [String.toList_ofList]
      cbv
    · repeat rw [String.toList_ofList]
      cbv
    · simp only [Links.join, numberedLinks, tabsLinks, List.flatMap_cons, List.flatMap_nil,
        List.flatMap_map, flatMap_none, ← List.map_eq_flatMap, List.append_nil, List.nil_append,
        List.cons_append]

theorem accordion_links (o : Occurrence) :
    (accordion o).stem? = none ∧ Template.HasLinks escape id (accordion o).template {} ∨
      (accordion o).stem? ≠ none ∧
        ∃ count, Template.HasLinks escape id (accordion o).template (accordionLinks id count) := by
  simp only [accordion]
  generalize o.children "item" = children
  generalize (Attributes.parse o.raw).getD = value
  cases children with
  | nil => exact .inl ⟨rfl, warning_links .noItems⟩
  | cons child children =>
    have hid : loneLinks id = { ids := [id ++ []] } := by
      rw [List.append_nil, loneLinks]
    refine .inr ⟨Option.some_ne_none _, (child :: children).length, Template.HasLinks.flatten
      (.cons (b := loneLinks id) ?_ (.cons (numbered_links (fun i child => (parts_links i child).2.2) _)
        (.cons (b := {}) ?_ .nil))) ?_⟩
    · rw [hid]
      repeat rw [String.toList_ofList]
      cbv
    · repeat rw [String.toList_ofList]
      cbv
    · simp only [Links.join, numberedLinks, accordionLinks, loneLinks, List.flatMap_cons,
        List.flatMap_nil, List.flatMap_map, flatMap_none, ← List.map_eq_flatMap, List.append_nil,
        List.nil_append, List.cons_append]

theorem countdown_links (o : Occurrence) :
    (countdown o).stem? = none ∧ Template.HasLinks escape id (countdown o).template {} ∨
      (countdown o).stem? ≠ none ∧
        Template.HasLinks escape id (countdown o).template (loneLinks id) := by
  have hid : loneLinks id = { ids := [id ++ []] } := by
    rw [List.append_nil, loneLinks]
  simp only [countdown]
  generalize (Attributes.parse o.raw).getD = value
  split
  · exact .inl ⟨rfl, warning_links .noDate⟩
  · refine .inr ⟨Option.some_ne_none _, ?_⟩
    rw [hid]
    simp only [template, countdownUnit]
    repeat rw [String.toList_ofList]
    cbv

theorem hiddenUnlessEmpty_links {name : String} {value : Text}
    (h : Template.HasLinks escape id (hidden name (.value value)) {}) :
    Template.HasLinks escape id (hiddenUnlessEmpty name value) {} := by
  unfold hiddenUnlessEmpty
  split
  · exact ⟨rfl, rfl⟩
  · exact h

theorem contactForm_links (h : Host) (o : Occurrence) :
    Template.HasLinks escape id (contactForm h o).template (contactFormLinks id) := by
  have hid : loneLinks id = { ids := [id ++ []] } := by
    rw [List.append_nil, loneLinks]
  simp only [contactForm, template]
  generalize (Attributes.parse o.raw).getD = value
  let parts : List Links := [loneLinks id, {}, {}, {}, {}, {}, {}, fieldLinks id "name",
    fieldLinks id "email", fieldLinks id "message", {}]
  have hparts : Links.join parts = contactFormLinks id := rfl
  refine Template.HasLinks.flatten ?_ hparts
  unfold hidden labelled
  repeat rw [String.toList_ofList]
  refine .cons ?_ (.cons ?_ (.cons ?_ (.cons ?_ (.cons (hiddenUnlessEmpty_links ?_)
    (.cons (hiddenUnlessEmpty_links ?_) (.cons (hiddenUnlessEmpty_links ?_) (.cons ?_ (.cons ?_
      (.cons ?_ (.cons ?_ .nil))))))))))
  · rw [hid]
    cbv
  all_goals cbv

/-! ### What derives from an ID -/

/-- An ID derives from another one if a dash sets off what is added to it. -/
def Derives (id derived : Text) : Prop :=
  ∃ before after, derived = before ++ (id ++ after) ∧ before ∈ [[], ("heading-" : Text)] ∧
    ∀ c ∈ after.head?, c = '-'

/-- The links of a widget: its IDs are different, derive from its own one, and are what the
references name. -/
structure SoundLinks (id : Text) (l : Links) : Prop where
  nodup : l.ids.Nodup
  derives : ∀ x ∈ l.ids, Derives id x
  resolve : l.Resolve

theorem derives_append {after : Text} (h : ∀ c ∈ after.head?, c = '-') : Derives id (id ++ after) :=
  ⟨[], after, rfl, by simp, h⟩

theorem derives_self : Derives id id := by
  have h : Derives id (id ++ []) := derives_append (by simp)
  rwa [List.append_nil] at h

theorem soundLinks_lone : SoundLinks id (loneLinks id) where
  nodup := by simp [loneLinks]
  derives := by
    intro x hx
    rw [loneLinks, List.mem_singleton] at hx
    subst hx
    exact derives_self
  resolve := ⟨rfl, by simp [loneLinks], by simp [loneLinks], by simp [loneLinks]⟩

theorem soundLinks_contactForm : SoundLinks id (contactFormLinks id) where
  nodup := by
    simp [contactFormLinks, fieldId]
  derives := by
    simp only [contactFormLinks, List.forall_mem_cons]
    exact ⟨derives_self, derives_append (by simp), derives_append (by simp), derives_append (by simp),
      by simp⟩
  resolve := ⟨rfl, by simp [contactFormLinks], by simp [contactFormLinks], by simp [contactFormLinks]⟩

theorem soundLinks_tabs (count : Nat) : SoundLinks id (tabsLinks id count) where
  nodup := by
    have hpanes : ((List.range count).map (paneId id)).Nodup := by
      refine List.nodup_range.map ?_
      intro i j hij
      exact Text.decimal_inj.mp (List.append_cancel_left (List.append_cancel_left hij))
    have htoggles : ((List.range count).map (toggleId id)).Nodup := by
      refine List.nodup_range.map ?_
      intro i j hij
      exact Text.decimal_inj.mp
        (List.append_cancel_right (List.append_cancel_left (List.append_cancel_left hij)))
    -- A dash follows the number in the ID of a toggle, and none in the ID of a pane.
    have hdash : ∀ i j, Text.decimal i ++ ['-', 't', 'a', 'b'] ≠ Text.decimal j := by
      intro i j hij
      have hmem : '-' ∈ Text.decimal j := by
        rw [← hij]
        simp
      exact Text.not_mem_decimal (by decide) hmem
    simp [tabsLinks, List.nodup_append, hpanes, htoggles, hdash, paneId, toggleId]
  derives := by
    simp only [tabsLinks, List.forall_mem_cons, List.forall_mem_append, List.forall_mem_map]
    exact ⟨derives_append (by simp), fun i _ => derives_append (by simp), derives_append (by simp),
      fun i _ => derives_append (by simp)⟩
  resolve :=
    { targets := by rw [tabsLinks, List.map_map]; rfl
      panels := fun x hx => by simp [tabsLinks] at hx ⊢; exact .inr (.inr (.inr hx))
      parents := by simp [tabsLinks]
      labelled := by simp [tabsLinks] }

theorem soundLinks_accordion (hid : id.head? ≠ some 'h') (count : Nat) :
    SoundLinks id (accordionLinks id count) where
  nodup := by
    have hitem : ∀ i j, itemId id i = itemId id j ↔ i = j := by
      intro i j
      unfold itemId
      rw [List.append_cancel_left_eq, List.append_cancel_left_eq, Text.decimal_inj]
    have hheading : ∀ i j, headingId id i = headingId id j ↔ i = j := by
      intro i j
      unfold headingId
      rw [List.append_cancel_left_eq, hitem]
    -- The ID of a heading begins with an `h`, and the others begin as the widget's own does.
    have hapart : ∀ i after, after.head? ≠ some 'h' → headingId id i ≠ id ++ after := by
      intro i after hafter heq
      have hhead : (id ++ after).head? = some 'h' := by
        rw [← heq]
        unfold headingId
        rw [String.toList_ofList]
        rfl
      rw [List.head?_append, Option.or_eq_some_iff] at hhead
      rcases hhead with hhead | ⟨-, hhead⟩
      · exact hid hhead
      · exact hafter hhead
    have hself : ∀ i, headingId id i ≠ id := by
      intro i heq
      exact hapart i [] (by simp) (by rw [heq, List.append_nil])
    have hcross : ∀ i j, headingId id i ≠ itemId id j := fun i j => hapart i _ (by simp)
    have hlonger : ∀ i, id ≠ itemId id i := by
      intro i heq
      have hlength := congrArg List.length heq
      simp [itemId] at hlength
    rw [accordionLinks, List.nodup_cons, List.nodup_flatMap]
    refine ⟨?_, ?_, ?_⟩
    · simp only [List.mem_flatMap, List.mem_cons, List.not_mem_nil, or_false, not_exists, not_and,
        not_or]
      exact fun i _ => ⟨(hself i).symm, hlonger i⟩
    · intro i _
      rw [List.nodup_cons, List.mem_singleton]
      exact ⟨hcross i i, List.nodup_singleton _⟩
    · refine List.nodup_range.imp ?_
      intro i j hij x hi hj
      simp only [List.mem_cons, List.not_mem_nil, or_false] at hi hj
      rcases hi with rfl | rfl
      · rcases hj with hj | hj
        · exact hij ((hheading i j).mp hj)
        · exact hcross i j hj
      · rcases hj with hj | hj
        · exact hcross j i hj.symm
        · exact hij ((hitem i j).mp hj)
  derives := by
    simp only [accordionLinks, List.forall_mem_cons, List.forall_mem_flatMap]
    refine ⟨derives_self, fun i _ => ⟨⟨_, _, rfl, by simp, ?_⟩, derives_append ?_, by simp⟩⟩
    all_goals simp
  resolve :=
    { targets := by rw [accordionLinks, List.map_map]; rfl
      panels := by
        intro x hx
        obtain ⟨i, hi, rfl⟩ := List.mem_map.mp hx
        refine List.mem_cons_of_mem _ (List.mem_flatMap.mpr ⟨i, hi, by simp⟩)
      parents := by
        intro x hx
        obtain ⟨i, hi, rfl⟩ := List.mem_map.mp hx
        exact ⟨id, List.mem_cons_self .., rfl⟩
      labelled := by simp [accordionLinks] }

end Expansion

open Markup Expansion in
/-- An expansion that draws no ID has no links, and the links of a widget are sound for every ID that
does not begin as a heading's does. -/
theorem Kind.links_expand (k : Kind) (h : Host) (o : Occurrence) (escape : Text → Text) {id : Text}
    (hid : id.head? ≠ some 'h') :
    (k.expand h o).stem? = none ∧ (k.expand h o).template.links escape id = {} ∨
      (k.expand h o).stem? ≠ none ∧ SoundLinks id ((k.expand h o).template.links escape id) := by
  have hnone : ∀ {t : Template}, t.HasLinks escape id {} → t.links escape id = {} :=
    Template.links_eq_of_hasLinks
  have hsound : ∀ {t : Template} {l : Links}, t.HasLinks escape id l → SoundLinks id l →
      SoundLinks id (t.links escape id) := by
    intro t l ht hl
    rw [Template.links_eq_of_hasLinks ht]
    exact hl
  cases k with
  | button => exact .inl ⟨rfl, hnone (button_links o)⟩
  | alert => exact .inl ⟨rfl, hnone (alert_links o)⟩
  | gallery =>
    rcases gallery_links h o with ⟨hstem, hlinks⟩ | ⟨hstem, hlinks⟩
    · exact .inl ⟨hstem, hnone hlinks⟩
    · exact .inr ⟨hstem, hsound hlinks soundLinks_lone⟩
  | tabs =>
    rcases tabs_links o with ⟨hstem, hlinks⟩ | ⟨hstem, count, hlinks⟩
    · exact .inl ⟨hstem, hnone hlinks⟩
    · exact .inr ⟨hstem, hsound hlinks (soundLinks_tabs count)⟩
  | accordion =>
    rcases accordion_links o with ⟨hstem, hlinks⟩ | ⟨hstem, count, hlinks⟩
    · exact .inl ⟨hstem, hnone hlinks⟩
    · exact .inr ⟨hstem, hsound hlinks (soundLinks_accordion hid count)⟩
  | countdown =>
    rcases countdown_links o with ⟨hstem, hlinks⟩ | ⟨hstem, hlinks⟩
    · exact .inl ⟨hstem, hnone hlinks⟩
    · exact .inr ⟨hstem, hsound hlinks soundLinks_lone⟩
  | contactForm =>
    exact .inr ⟨Option.some_ne_none _, hsound (contactForm_links h o) soundLinks_contactForm⟩

end Shortcode
