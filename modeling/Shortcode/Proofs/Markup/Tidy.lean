import Shortcode.Proofs.Expansion.Settled
import Shortcode.Proofs.Markup.Slots
import Shortcode.Proofs.Text.Digits

/-! # Tidy templates

A tidy template has no square bracket of its own, every slot in it is set off from the markup behind
it by a character that occurs in no keyword, and an element ID only stands at the start of an
attribute value. All templates of this library are tidy. So no slot runs together with what follows
it, and an ID is neither a name nor a part of a tag. -/

namespace Shortcode

namespace Markup

/-- A place for an element ID: the attribute that it stands in, by the word characters at the end of
its name, and what leads up to the ID inside the value. -/
structure Anchor where
  name : Text
  lead : Text
deriving DecidableEq, Repr

/-- The places in which templates put an ID. -/
def anchors : List Anchor :=
  [⟨"id", ""⟩, ⟨"id", "heading-"⟩, ⟨"target", "#"⟩, ⟨"parent", "#"⟩, ⟨"for", ""⟩, ⟨"value", ""⟩]

/-- The markup up to the ID. -/
def Anchor.opening (a : Anchor) : Text :=
  a.name ++ '=' :: '"' :: a.lead

namespace Template

/-- Whether a template sets off what stands in front of it. A class name either does so itself or is
left out. -/
def setsOff : Template → Bool
  | .literal (c :: _) :: _ => c ∈ ['"', '<', ' ']
  | .className _ :: rest => setsOff rest
  | _ => false

/-- Whether a template closes or continues the attribute value at whose start an ID stands. -/
def continuesId : Template → Bool
  | .literal (c :: _) :: _ => c ∈ ['"', '-']
  | _ => false

/-- Whether the slots of a template that stands behind the literal `before` are in their place. -/
def slotsFitAfter : Text → Template → Bool
  | _, [] => true
  | before, .id :: rest =>
    anchors.any (·.opening.isSuffixOf before) && continuesId rest && slotsFitAfter [] rest
  | _, .literal text :: rest => slotsFitAfter text rest
  | _, .value _ :: rest => setsOff rest && slotsFitAfter [] rest
  | _, .className _ :: rest => setsOff rest && slotsFitAfter [] rest
  | _, .body _ :: rest => setsOff rest && slotsFitAfter [] rest

/-- Whether a template has no square bracket of its own and its slots are in their place. -/
def isTidy (t : Template) : Bool :=
  t.isBracketFree && t.slotsFitAfter []

/-! ### Tidy templates behind each other -/

variable {before : Text} {p : Piece} {t u : Template}

theorem isBracketFree_cons : isBracketFree (p :: t) = (p.fixed.isBracketFree && t.isBracketFree) :=
  rfl

theorem setsOff_append (h : t.setsOff = true) : (t ++ u).setsOff = true := by
  induction t with
  | nil => cases h
  | cons p t ih =>
    cases p with
    | literal text =>
      cases text with
      | nil => cases h
      | cons c text => exact h
    | className text => exact ih h
    | value text => cases h
    | body text => cases h
    | id => cases h

theorem continuesId_append (h : t.continuesId = true) : (t ++ u).continuesId = true := by
  cases t with
  | nil => cases h
  | cons p t =>
    cases p with
    | literal text =>
      cases text with
      | nil => cases h
      | cons c text => exact h
    | className text => cases h
    | value text => cases h
    | body text => cases h
    | id => cases h

theorem slotsFitAfter_of_nil (h : u.slotsFitAfter [] = true) : u.slotsFitAfter before = true := by
  cases u with
  | nil => rfl
  | cons p u =>
    cases p with
    | id =>
      -- No place for an ID is at the very start.
      have hnone : anchors.any (·.opening.isSuffixOf []) = false := by decide
      simp [slotsFitAfter, hnone] at h
    | _ => exact h

theorem slotsFitAfter_append (ht : t.slotsFitAfter before = true) (hu : u.slotsFitAfter [] = true) :
    (t ++ u).slotsFitAfter before = true := by
  induction t generalizing before with
  | nil => exact slotsFitAfter_of_nil hu
  | cons p t ih =>
    cases p with
    | id =>
      simp only [slotsFitAfter, Bool.and_eq_true] at ht
      obtain ⟨⟨hanchor, hcontinues⟩, hrest⟩ := ht
      simp only [List.cons_append, slotsFitAfter, Bool.and_eq_true]
      exact ⟨⟨hanchor, continuesId_append hcontinues⟩, ih hrest⟩
    | literal text => exact ih ht
    | _ =>
      simp only [slotsFitAfter, Bool.and_eq_true] at ht
      simp only [List.cons_append, slotsFitAfter, Bool.and_eq_true]
      exact ⟨setsOff_append ht.1, ih ht.2⟩

theorem isTidy_iff : t.isTidy = true ↔ t.isBracketFree = true ∧ t.slotsFitAfter [] = true :=
  Bool.and_eq_true_iff

theorem isTidy_append (ht : t.isTidy = true) (hu : u.isTidy = true) : (t ++ u).isTidy = true := by
  obtain ⟨htfree, htslots⟩ := isTidy_iff.mp ht
  obtain ⟨hufree, huslots⟩ := isTidy_iff.mp hu
  refine isTidy_iff.mpr ⟨?_, slotsFitAfter_append htslots huslots⟩
  rw [isBracketFree, List.all_append, Bool.and_eq_true]
  exact ⟨htfree, hufree⟩

theorem isTidy_flatten {ts : List Template} (h : ∀ t ∈ ts, t.isTidy = true) :
    isTidy ts.flatten = true := by
  induction ts with
  | nil => rfl
  | cons t ts ih =>
    rw [List.flatten_cons]
    exact isTidy_append (h t (List.mem_cons_self ..)) (ih fun u hu => h u (List.mem_cons_of_mem t hu))

end Template

end Markup

/-! ### The templates -/

theorem Text.isBracketFree_decimal (n : Nat) : (Text.decimal n).isBracketFree = true := by
  refine List.all_eq_true.mpr ?_
  intro c hc
  have hopening : c ≠ '[' := by
    rintro rfl
    exact not_mem_decimal (by decide) hc
  have hclosing : c ≠ ']' := by
    rintro rfl
    exact not_mem_decimal (by decide) hc
  simp [hopening, hclosing]

namespace Expansion

open Markup

theorem isTidy_numbered {item : Nat → Child → Template}
    (h : ∀ i child, (item i child).isTidy = true) (children : List Child) :
    (numbered item children).isTidy = true := by
  refine Template.isTidy_flatten ?_
  intro t ht
  obtain ⟨⟨child, i⟩, -, rfl⟩ := List.mem_map.mp ht
  exact h i child

/- The templates are checked by evaluation. Their literals are turned into lists first, since the
characters of a string literal are slow to compute. -/

/-- Numbers hold no bracket and fill no slot, so the template of a numbered child is checked for the
first child and for one of the others. -/
theorem isTidy_parts (i : Nat) (child : Child) :
    (tabToggle i child).isTidy = true ∧ (tabPane i child).isTidy = true ∧
      (accordionItem i child).isTidy = true := by
  have hnumber := Text.isBracketFree_decimal i
  unfold tabToggle tabPane accordionItem
  repeat rw [String.toList_ofList]
  simp only [Template.isTidy_iff]
  by_cases hi : i = 0
  · subst hi
    exact ⟨⟨rfl, rfl⟩, ⟨rfl, rfl⟩, rfl, rfl⟩
  · simp only [if_neg hi, number, Template.isBracketFree, List.all_cons, Piece.fixed, hnumber]
    exact ⟨⟨rfl, rfl⟩, ⟨rfl, rfl⟩, rfl, rfl⟩

theorem isTidy_galleryItem (image : Image) : (galleryItem image).isTidy = true := by
  unfold galleryItem
  repeat rw [String.toList_ofList]
  split <;> rfl

theorem isTidy_hiddenUnlessEmpty {name : String} (hname : Text.isBracketFree name = true)
    (value : Text) : (hiddenUnlessEmpty name value).isTidy = true := by
  unfold hiddenUnlessEmpty hidden
  repeat rw [String.toList_ofList]
  split
  · rfl
  · simp only [Template.isTidy, Template.isBracketFree, List.all_cons, Piece.fixed, hname]
    rfl

theorem isTidy_warning (w : Warning) : (warning w).template.isTidy = true := by
  cases w <;> rfl

theorem isTidy_button (o : Occurrence) : (button o).template.isTidy = true := by
  simp only [button, template]
  repeat rw [String.toList_ofList]
  split <;> rfl

theorem isTidy_alert (o : Occurrence) : (alert o).template.isTidy = true := by
  simp only [alert, dismissControl, template]
  repeat rw [String.toList_ofList]
  split <;> rfl

theorem isTidy_gallery (h : Host) (o : Occurrence) : (gallery h o).template.isTidy = true := by
  simp only [gallery_eq, galleryMarkup]
  split
  · exact isTidy_warning _
  · refine Template.isTidy_flatten ?_
    repeat rw [String.toList_ofList]
    simp only [List.forall_mem_cons]
    refine ⟨rfl, ?_, rfl, by simp⟩
    refine Template.isTidy_flatten ?_
    intro t ht
    obtain ⟨image, -, rfl⟩ := List.mem_map.mp ht
    exact isTidy_galleryItem image

theorem isTidy_tabs (o : Occurrence) : (tabs o).template.isTidy = true := by
  unfold tabs
  split
  · exact isTidy_warning _
  · refine Template.isTidy_flatten ?_
    repeat rw [String.toList_ofList]
    simp only [List.forall_mem_cons]
    exact ⟨rfl, isTidy_numbered (fun i child => (isTidy_parts i child).1) _, rfl,
      isTidy_numbered (fun i child => (isTidy_parts i child).2.1) _, rfl, by simp⟩

theorem isTidy_accordion (o : Occurrence) : (accordion o).template.isTidy = true := by
  unfold accordion
  split
  · exact isTidy_warning _
  · refine Template.isTidy_flatten ?_
    repeat rw [String.toList_ofList]
    simp only [List.forall_mem_cons]
    exact ⟨rfl, isTidy_numbered (fun i child => (isTidy_parts i child).2.2) _, rfl, by simp⟩

theorem isTidy_countdown (o : Occurrence) : (countdown o).template.isTidy = true := by
  simp only [countdown, countdownUnit]
  repeat rw [String.toList_ofList]
  split
  · exact isTidy_warning _
  · rfl

theorem isTidy_contactForm (h : Host) (o : Occurrence) :
    (contactForm h o).template.isTidy = true := by
  refine Template.isTidy_flatten ?_
  unfold hidden labelled
  repeat rw [String.toList_ofList]
  simp only [List.forall_mem_cons]
  exact ⟨rfl, rfl, rfl, rfl, isTidy_hiddenUnlessEmpty rfl _, isTidy_hiddenUnlessEmpty rfl _,
    isTidy_hiddenUnlessEmpty rfl _, rfl, rfl, rfl, rfl, by simp⟩

end Expansion

namespace Kind

variable (k : Kind) (h : Host) (o : Occurrence)

theorem isTidy_expand : (k.expand h o).template.isTidy = true := by
  cases k with
  | button => exact Expansion.isTidy_button o
  | alert => exact Expansion.isTidy_alert o
  | gallery => exact Expansion.isTidy_gallery h o
  | tabs => exact Expansion.isTidy_tabs o
  | accordion => exact Expansion.isTidy_accordion o
  | countdown => exact Expansion.isTidy_countdown o
  | contactForm => exact Expansion.isTidy_contactForm h o

theorem isBracketFree_expand : (k.expand h o).isBracketFree = true := by
  have hfree := (Markup.Template.isTidy_iff.mp (k.isTidy_expand h o)).1
  cases hx : k.expand h o with
  | warning w =>
    rw [hx] at hfree
    exact (Bool.and_eq_true_iff.mp hfree).1
  | plain markup => rwa [hx] at hfree
  | widget stem markup calls => rwa [hx] at hfree

end Kind

end Shortcode
