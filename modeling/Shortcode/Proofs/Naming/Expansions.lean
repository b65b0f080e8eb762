import Shortcode.Proofs.Naming.Attributes
import Shortcode.Proofs.Naming.Tags

/-! # Expansions of woven shortcodes

A shortcode whose attributes and bodies are woven becomes what its counterpart becomes, with woven
bodies in it: no attribute that a widget reads has the name of an anchor. Filled with IDs that stand
for each other, their templates are woven texts. -/

namespace Shortcode

open Markup

variable {names : Text → Text → Prop}

namespace Markup

/-- Pieces that are the same, or bodies that are woven. -/
inductive Piece.Alike (names : Text → Text → Prop) : Piece → Piece → Prop where
  | refl (p : Piece) : Alike names p p
  | body {x y : Text} (h : Woven names x y) : Alike names (.body x) (.body y)

namespace Template

/-- Templates that agree up to their bodies, which are woven. -/
def Alike (names : Text → Text → Prop) : Template → Template → Prop :=
  List.Forall₂ (Piece.Alike names)

theorem Alike.refl (t : Template) : t.Alike names t :=
  List.forall₂_same.mpr fun p _ => .refl p

theorem Alike.mono {names' : Text → Text → Prop} (hnames : ∀ u v, names u v → names' u v)
    {t t' : Template} (h : t.Alike names t') : t.Alike names' t' := by
  refine List.Forall₂.imp ?_ h
  rintro p p' (_ | hbody)
  · exact .refl p
  · exact .body (hbody.mono hnames)

theorem Alike.append {t t' u u' : Template} (ht : t.Alike names t') (hu : u.Alike names u') :
    (t ++ u).Alike names (t' ++ u') := by
  induction ht with
  | nil => exact hu
  | cons hp _ ih => exact .cons hp ih

theorem Alike.flatten {ts ts' : List Template} (h : List.Forall₂ (Alike names) ts ts') :
    Alike names ts.flatten ts'.flatten := by
  induction h with
  | nil => exact .nil
  | cons ht _ ih => exact ht.append ih

/-- The literal that closes or continues the value of an ID is the same in both templates. -/
theorem Alike.exists_literal {t t' : Template} (hcontinues : t.continuesId = true)
    (h : t.Alike names t') :
    ∃ closing text u u', closing ∈ ['"', '-'] ∧ t = .literal (closing :: text) :: u ∧
      t' = .literal (closing :: text) :: u' := by
  cases h with
  | nil => cases hcontinues
  | @cons p p' t t' hp h =>
    cases hp with
    | body _ => cases hcontinues
    | refl p =>
      match p, hcontinues with
      | .literal (closing :: text), hcontinues =>
        exact ⟨closing, text, t, t', of_decide_eq_true hcontinues, rfl, rfl⟩

/-- An ID completes an anchor with the markup in front of it and the character behind it. -/
theorem Alike.woven_fill {t t' : Template} {before u v : Text}
    (hfit : t.slotsFitAfter before = true) (h : t.Alike names t') (hname : names u v)
    (escape : Text → Text) :
    Woven names (before ++ t.fill escape u) (before ++ t'.fill escape v) := by
  induction h generalizing before with
  | nil => exact .refl _
  | @cons p p' t t' hp h ih =>
    have hliteral : ∀ {text : Text}, slotsFitAfter text t = true →
        Woven names (before ++ (text ++ fill escape u t)) (before ++ (text ++ fill escape v t')) :=
      fun hrest => (Woven.refl before).append (ih hrest)
    have hslot : ∀ {x y : Text}, Woven names x y → slotsFitAfter [] t = true →
        Woven names (before ++ (x ++ fill escape u t)) (before ++ (y ++ fill escape v t')) :=
      fun hxy hrest => (Woven.refl before).append (hxy.append (ih hrest))
    cases hp with
    | body hbody => exact hslot hbody (Bool.and_eq_true_iff.mp hfit).2
    | refl p =>
      cases p with
      | literal text => exact hliteral hfit
      | value text => exact hslot (.refl _) (Bool.and_eq_true_iff.mp hfit).2
      | className text => exact hslot (.refl _) (Bool.and_eq_true_iff.mp hfit).2
      | body text => exact hslot (.refl _) (Bool.and_eq_true_iff.mp hfit).2
      | id =>
        simp only [slotsFitAfter, Bool.and_eq_true, List.any_eq_true,
          List.isSuffixOf_iff_suffix] at hfit
        obtain ⟨⟨⟨a, ha, front, rfl⟩, hcontinues⟩, hrest⟩ := hfit
        obtain ⟨closing, text, t, t', hclosing, rfl, rfl⟩ := Alike.exists_literal hcontinues h
        have hword : ∀ c ∈ ['"', '-'], Text.isWordChar c = false :=
          Anchor.forall_closing (by decide) (by decide)
        have hbehind : Woven names (closing :: (text ++ fill escape u t))
            (closing :: (text ++ fill escape v t')) := ih hrest
        obtain ⟨y, hy, hwoven⟩ := hbehind.tail (hword closing hclosing)
        obtain ⟨-, rfl⟩ := List.cons.inj hy
        have hanchor := Woven.anchor ha hname hclosing hwoven
        have hjoined := (Woven.refl front).append hanchor
        simpa [Anchor.around, fill, Piece.fill] using hjoined

end Template

end Markup

namespace Expansion

/-- Expansions that agree up to the bodies in the template of a widget. -/
inductive Alike (names : Text → Text → Prop) : Expansion → Expansion → Prop where
  | warning (w : Warning) : Alike names (.warning w) (.warning w)
  | plain (markup : Template) : Alike names (.plain markup) (.plain markup)
  | widget (stem : Text) {markup markup' : Template} (calls : List Call)
      (h : markup.Alike names markup') : Alike names (.widget stem markup calls)
        (.widget stem markup' calls)

theorem Alike.refl (x : Expansion) : x.Alike names x := by
  cases x with
  | warning w => exact .warning w
  | plain markup => exact .plain markup
  | widget stem markup calls => exact .widget stem calls (.refl markup)

theorem alike_numbered {item : Nat → Child → Template}
    (hitem : ∀ i {child child' : Child}, child.Alike names child' →
      (item i child).Alike names (item i child'))
    {children children' : List Child} (h : List.Forall₂ (Child.Alike names) children children') :
    (numbered item children).Alike names (numbered item children') := by
  refine Template.Alike.flatten ?_
  generalize 0 = i
  induction h generalizing i with
  | nil => exact .nil
  | cons hchild _ ih => exact .cons (hitem i hchild) (ih (i + 1))

theorem alike_tabToggle (i : Nat) {child child' : Child} (h : child.Alike names child') :
    (tabToggle i child).Alike names (tabToggle i child') := by
  unfold tabToggle
  rw [h.1]
  exact .refl _

theorem alike_tabPane (i : Nat) {child child' : Child} (h : child.Alike names child') :
    (tabPane i child).Alike names (tabPane i child') := by
  unfold tabPane
  -- The body is the only piece in which the two differ.
  repeat refine .cons (.refl _) ?_
  exact .cons (.body h.2) (Template.Alike.refl _)

theorem alike_accordionItem (i : Nat) {child child' : Child} (h : child.Alike names child') :
    (accordionItem i child).Alike names (accordionItem i child') := by
  unfold accordionItem
  rw [h.1]
  repeat refine .cons (.refl _) ?_
  exact .cons (.body h.2) (Template.Alike.refl _)

section Plain

variable (hplain : PlainNames names) {o o' : Occurrence} (ho : o.Alike names o')

include hplain ho

theorem alike_tabs : (tabs o).Alike names (tabs o') := by
  have hchildren : List.Forall₂ (Child.Alike names) (o.children "tab") (o'.children "tab") :=
    Occurrence.children_alike hplain (by decide) (by decide) ho
  unfold tabs
  rw [Attributes.getD_eq_of_woven hplain (by decide) ho.1]
  generalize o.children "tab" = children at hchildren
  generalize o'.children "tab" = children' at hchildren
  cases hchildren with
  | nil => exact .warning _
  | cons hchild hrest =>
    have hall := List.Forall₂.cons hchild hrest
    refine .widget _ _ (Template.Alike.flatten ?_)
    exact .cons (.refl _) (.cons (alike_numbered alike_tabToggle hall) (.cons (.refl _)
      (.cons (alike_numbered alike_tabPane hall) (.cons (.refl _) .nil))))

theorem alike_accordion : (accordion o).Alike names (accordion o') := by
  have hchildren : List.Forall₂ (Child.Alike names) (o.children "item") (o'.children "item") :=
    Occurrence.children_alike hplain (by decide) (by decide) ho
  unfold accordion
  rw [Attributes.getD_eq_of_woven hplain (by decide) ho.1]
  generalize o.children "item" = children at hchildren
  generalize o'.children "item" = children' at hchildren
  cases hchildren with
  | nil => exact .warning _
  | cons hchild hrest =>
    have hall := List.Forall₂.cons hchild hrest
    refine .widget _ _ (Template.Alike.flatten ?_)
    exact .cons (.refl _) (.cons (alike_numbered alike_accordionItem hall) (.cons (.refl _) .nil))

theorem alike_countdown : (countdown o).Alike names (countdown o') := by
  have heq : countdown o' = countdown o := by
    simp (disch := decide) only [countdown, Attributes.getD_eq_of_woven hplain (h := ho.1)]
  rw [heq]
  exact .refl _

theorem alike_gallery (h : Host) : (gallery h o).Alike names (gallery h o') := by
  have heq : gallery h o' = gallery h o := by
    simp (disch := decide) only [gallery, galleryMarkup,
      Attributes.getD_eq_of_woven hplain (h := ho.1)]
  rw [heq]
  exact .refl _

theorem alike_contactForm (h : Host) : (contactForm h o).Alike names (contactForm h o') := by
  have heq : contactForm h o' = contactForm h o := by
    simp (disch := decide) only [contactForm, Attributes.getD_eq_of_woven hplain (h := ho.1)]
  rw [heq]
  exact .refl _

end Plain

end Expansion

/-- Whether a kind has widgets, which draw IDs. Only these kinds are read behind IDs. -/
def Kind.hasWidgets : Kind → Bool
  | .button | .alert => false
  | _ => true

theorem Kind.expand_alike (hplain : PlainNames names) {k : Kind} (hk : k.hasWidgets = true) (h : Host)
    {o o' : Occurrence} (ho : o.Alike names o') :
    (k.expand h o).Alike names (k.expand h o') := by
  cases k with
  | button => cases hk
  | alert => cases hk
  | gallery => exact Expansion.alike_gallery hplain ho h
  | tabs => exact Expansion.alike_tabs hplain ho
  | accordion => exact Expansion.alike_accordion hplain ho
  | countdown => exact Expansion.alike_countdown hplain ho
  | contactForm => exact Expansion.alike_contactForm hplain ho h

end Shortcode
