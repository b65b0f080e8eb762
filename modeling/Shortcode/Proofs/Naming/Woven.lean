import Shortcode.Proofs.Attributes
import Shortcode.Proofs.Markup.Tidy
import Shortcode.Proofs.Text.Words

/-! # Woven texts

Two runs that draw their IDs from different sources give texts that agree up to these IDs, and each
ID stands at the start of an attribute value. Characters that occur neither in plain IDs nor around
them divide both texts in the same way, and what holds no quote is the same in both. -/

namespace Shortcode

/-- Only ASCII letters, digits and dashes. -/
def Text.isPlain (text : Text) : Bool :=
  text.all fun c => c.isAlphanum || c == '-'

namespace Markup

/-- An ID in its place, and the character that ends the value or continues it. -/
def Anchor.around (a : Anchor) (id : Text) (closing : Char) : Text :=
  a.opening ++ (id ++ [closing])

/-- A character that neither stands in a plain ID nor in the markup around an ID. -/
def isClear (c : Char) : Bool :=
  ! (c.isAlphanum || c ∈ ['-', '=', '"', '#'])

end Markup

open Markup

/-- Two texts that agree up to IDs, where `names` tells which IDs stand for each other. -/
inductive Woven (names : Text → Text → Prop) : Text → Text → Prop where
  | nil : Woven names [] []
  | char {x y : Text} (c : Char) (h : Woven names x y) : Woven names (c :: x) (c :: y)
  | anchor {x y u v : Text} {a : Anchor} {closing : Char} (ha : a ∈ anchors) (hname : names u v)
      (hclosing : closing ∈ ['"', '-']) (h : Woven names x y) :
      Woven names (a.around u closing ++ x) (a.around v closing ++ y)

/-- IDs that stand for each other are plain texts. -/
def PlainNames (names : Text → Text → Prop) : Prop :=
  ∀ u v, names u v → u.isPlain = true ∧ v.isPlain = true

theorem PlainNames.flip {names : Text → Text → Prop} (h : PlainNames names) :
    PlainNames (flip names) := fun u v huv => (h v u huv).symm

namespace Markup.Anchor

/-- What holds of a quote and a dash holds of every character that stands behind an ID. -/
theorem forall_closing {P : Char → Prop} (hquote : P '"') (hdash : P '-') :
    ∀ c ∈ ['"', '-'], P c := by
  intro c hc
  simp only [List.mem_cons, List.not_mem_nil, or_false] at hc
  rcases hc with rfl | rfl
  · exact hquote
  · exact hdash

variable {a : Anchor} {u : Text} {c closing : Char}

theorem not_mem_around (ha : a ∈ anchors) (hu : u.isPlain = true) (hclosing : closing ∈ ['"', '-'])
    (hc : isClear c = true) : c ∉ a.around u closing := by
  have hopening : ∀ a ∈ anchors, a.opening.all (! isClear ·) = true := by decide
  have hends : ∀ d ∈ ['"', '-'], isClear d = false := forall_closing (by decide) (by decide)
  intro hmem
  rcases List.mem_append.mp hmem with hmem | hmem
  · have hnot := List.all_eq_true.mp (hopening a ha) c hmem
    rw [hc] at hnot
    cases hnot
  · rcases List.mem_append.mp hmem with hmem | hmem
    · have hplain := List.all_eq_true.mp hu c hmem
      simp only [isClear, Bool.not_eq_true', Bool.or_eq_false_iff] at hc
      rw [hc.1, Bool.false_or, beq_iff_eq] at hplain
      rw [hplain] at hc
      simp at hc
    · rw [List.mem_singleton] at hmem
      rw [hmem, hends closing hclosing] at hc
      cases hc

theorem around_eq (a : Anchor) (u : Text) (closing : Char) :
    a.around u closing = a.name ++ '=' :: '"' :: (a.lead ++ (u ++ [closing])) := by
  simp [around, opening]

theorem name_ne_nil (ha : a ∈ anchors) : a.name ≠ [] := by
  revert a
  decide

theorem isWordChar_of_mem_name (ha : a ∈ anchors) : ∀ c ∈ a.name, Text.isWordChar c = true := by
  have hwords : ∀ a ∈ anchors, a.name.all Text.isWordChar = true := by decide
  exact List.all_eq_true.mp (hwords a ha)

end Markup.Anchor

namespace Woven

variable {names names' : Text → Text → Prop} {x y x' y' z : Text} {c : Char}

theorem refl (x : Text) : Woven names x x := by
  induction x with
  | nil => exact .nil
  | cons c x ih => exact .char c ih

theorem append (h : Woven names x y) (h' : Woven names x' y') : Woven names (x ++ x') (y ++ y') := by
  induction h with
  | nil => exact h'
  | char c _ ih => exact .char c ih
  | anchor ha hname hclosing _ ih =>
    rw [List.append_assoc, List.append_assoc]
    exact .anchor ha hname hclosing ih

theorem mono (hnames : ∀ u v, names u v → names' u v) (h : Woven names x y) : Woven names' x y := by
  induction h with
  | nil => exact .nil
  | char c _ ih => exact .char c ih
  | anchor ha hname hclosing _ ih => exact .anchor ha (hnames _ _ hname) hclosing ih

theorem flip (h : Woven names x y) : Woven (flip names) y x := by
  induction h with
  | nil => exact .nil
  | char c _ ih => exact .char c ih
  | anchor ha hname hclosing _ ih => exact .anchor ha hname hclosing ih

/-- There is a quote in front of every ID. -/
theorem eq_of_not_mem_quote (hx : '"' ∉ x) (h : Woven names x y) : y = x := by
  induction h with
  | nil => rfl
  | char c _ ih => rw [ih fun hmem => hx (List.mem_cons_of_mem c hmem)]
  | anchor _ _ _ _ _ => simp [Anchor.around_eq] at hx

theorem head?_eq (h : Woven names x y) : y.head? = x.head? := by
  cases h with
  | nil => rfl
  | char c _ => rfl
  | @anchor _ _ _ _ a _ ha _ _ _ =>
    obtain ⟨c, name, hname⟩ := List.exists_cons_of_ne_nil (Anchor.name_ne_nil ha)
    simp [Anchor.around_eq, hname]

/-- A character that begins no anchor stands in both texts. -/
theorem tail (hc : Text.isWordChar c = false) (h : Woven names (c :: x) z) :
    ∃ y, z = c :: y ∧ Woven names x y := by
  generalize htext : c :: x = text at h
  cases h with
  | nil => cases htext
  | char d h =>
    obtain ⟨rfl, rfl⟩ := List.cons.inj htext
    exact ⟨_, rfl, h⟩
  | @anchor _ _ _ _ a _ ha _ _ _ =>
    obtain ⟨d, name, hname⟩ := List.exists_cons_of_ne_nil (Anchor.name_ne_nil ha)
    rw [Anchor.around_eq, hname] at htext
    obtain ⟨rfl, -⟩ := List.cons.inj htext
    have hword := Anchor.isWordChar_of_mem_name ha c (by rw [hname]; simp)
    rw [hc] at hword
    cases hword

section Plain

variable (hplain : PlainNames names)

include hplain

/-- A clear character divides both texts. -/
theorem split (hc : isClear c = true) (h : Woven names (x ++ c :: y) z) :
    ∃ x' y', z = x' ++ c :: y' ∧ Woven names x x' ∧ Woven names y y' := by
  generalize htext : x ++ c :: y = text at h
  induction h generalizing x with
  | nil => simp at htext
  | @char x₁ y₁ d h ih =>
    cases x with
    | nil =>
      obtain ⟨rfl, rfl⟩ := List.cons.inj htext
      exact ⟨[], _, rfl, .nil, h⟩
    | cons e x =>
      obtain ⟨rfl, hrest⟩ := List.cons.inj htext
      obtain ⟨x', y', rfl, hx, hy⟩ := ih hrest
      exact ⟨e :: x', y', rfl, .char e hx, hy⟩
  | @anchor x₁ y₁ u v a closing ha hname hclosing h ih =>
    -- The clear character stands behind the whole anchor.
    have hmem := Anchor.not_mem_around ha (hplain u v hname).1 hclosing hc
    obtain ⟨w, rfl, hrest⟩ := Text.exists_of_append_cons_eq hmem htext
    obtain ⟨x', y', rfl, hx, hy⟩ := ih hrest.symm
    exact ⟨a.around v closing ++ x', y', by rw [List.append_assoc],
      .anchor ha hname hclosing hx, hy⟩

theorem mem_iff (hc : isClear c = true) (h : Woven names x y) : c ∈ y ↔ c ∈ x := by
  have hsub : ∀ {names : Text → Text → Prop} {x y : Text}, PlainNames names → Woven names x y →
      c ∈ x → c ∈ y := by
    intro names x y hplain h hmem
    obtain ⟨before, after, rfl⟩ := List.append_of_mem hmem
    obtain ⟨before', after', rfl, -, -⟩ := h.split hplain hc
    simp
  exact ⟨hsub hplain.flip h.flip, hsub hplain h⟩

theorem eq_append_of_isClear (hx : x.all isClear = true) (h : Woven names (x ++ y) z) :
    ∃ y', z = x ++ y' ∧ Woven names y y' := by
  induction x generalizing z with
  | nil => exact ⟨z, rfl, h⟩
  | cons c x ih =>
    rw [List.all_cons, Bool.and_eq_true] at hx
    obtain ⟨hc, hx⟩ := hx
    obtain ⟨front, rest, rfl, hfront, hrest⟩ := split hplain (x := []) hc h
    obtain ⟨y', rfl, hy⟩ := ih hx hrest
    rw [hfront.eq_of_not_mem_quote (by simp)]
    exact ⟨y', rfl, hy⟩

/-- A word without quotes and a clear character behind it are the same in both texts. -/
theorem eq_append_cons (hc : isClear c = true) (hx : '"' ∉ x) (h : Woven names (x ++ c :: y) z) :
    ∃ y', z = x ++ c :: y' ∧ Woven names y y' := by
  obtain ⟨x', y', rfl, hx', hy⟩ := h.split hplain hc
  rw [hx'.eq_of_not_mem_quote hx]
  exact ⟨y', rfl, hy⟩

end Plain

end Woven

end Shortcode
