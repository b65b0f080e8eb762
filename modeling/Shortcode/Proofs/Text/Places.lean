import Shortcode.Proofs.Scan.Cut
import Shortcode.Proofs.Text.Words

/-! # Places of a word

How often a word stands in a text. The word begins with a mark that it does not hold again, so two
of its places do not overlap, and none lies across the mark at which one text is joined to
another. -/

namespace Shortcode.Text

/-- The number of places at which a word stands in a text. -/
def placesOf (word : Text) : Text → Nat
  | [] => 0
  | c :: text => placesOf word text + if word.isPrefixOf (c :: text) then 1 else 0

/-- The number of places in some texts together. -/
def placesIn (word : Text) : List Text → Nat
  | [] => 0
  | text :: texts => placesOf word text + placesIn word texts

/-- Whether no place of a word begins in a text, whatever stands behind it. -/
def keepsApart (word : Text) : Text → Bool
  | [] => true
  | c :: text =>
    !word.isPrefixOf (c :: text) && !(c :: text).isPrefixOf word && keepsApart word text

variable {mark : Char} {word x y : Text}

theorem placesOf_cons (c : Char) : placesOf word (c :: x) =
    placesOf word x + if word.isPrefixOf (c :: x) then 1 else 0 := rfl

theorem placesOf_cons_of_not_prefix {c : Char} (h : ¬ word <+: c :: x) :
    placesOf word (c :: x) = placesOf word x := by
  rw [← List.isPrefixOf_iff_prefix, Bool.not_eq_true] at h
  rw [placesOf_cons, h]
  rfl

theorem placesOf_cons_of_ne {c : Char} (h : mark ≠ c) :
    placesOf (mark :: word) (c :: x) = placesOf (mark :: word) x := by
  apply placesOf_cons_of_not_prefix
  rw [List.cons_prefix_cons]
  exact fun hprefix => h hprefix.1

/-- Joining texts loses no place. -/
theorem placesOf_add_le (word x y : Text) :
    placesOf word x + placesOf word y ≤ placesOf word (x ++ y) := by
  induction x with
  | nil => simp [placesOf]
  | cons c x ih =>
    simp only [List.cons_append, placesOf_cons]
    by_cases h : word.isPrefixOf (c :: x) = true
    · have hjoined : word.isPrefixOf (c :: (x ++ y)) = true := by
        rw [List.isPrefixOf_iff_prefix] at h ⊢
        exact h.trans ⟨y, rfl⟩
      simp only [h, hjoined]
      omega
    · rw [if_neg h]
      omega

theorem placesOf_le_of_infix (word : Text) (h : x <:+: y) : placesOf word x ≤ placesOf word y := by
  obtain ⟨before, after, rfl⟩ := h
  have hfront := placesOf_add_le word before x
  have hback := placesOf_add_le word (before ++ x) after
  omega

theorem placesOf_append_of_not_mem (h : mark ∉ x) (y : Text) :
    placesOf (mark :: word) (x ++ y) = placesOf (mark :: word) y := by
  induction x with
  | nil => rfl
  | cons c x ih =>
    rw [List.mem_cons, not_or] at h
    rw [List.cons_append, placesOf_cons_of_ne h.1, ih h.2]

/-- A place does not lie across the mark of the word. -/
theorem placesOf_append_cons (hword : mark ∉ word) (x y : Text) :
    placesOf (mark :: word) (x ++ mark :: y) =
      placesOf (mark :: word) x + placesOf (mark :: word) (mark :: y) := by
  induction x with
  | nil => simp [placesOf]
  | cons c x ih =>
    have hsame : (mark :: word).isPrefixOf (c :: (x ++ mark :: y)) =
        (mark :: word).isPrefixOf (c :: x) := by
      rw [Bool.eq_iff_iff, List.isPrefixOf_iff_prefix, List.isPrefixOf_iff_prefix,
        List.cons_prefix_cons, List.cons_prefix_cons]
      constructor
      · rintro ⟨hc, rest, hrest⟩
        obtain ⟨z, hz, -⟩ := exists_of_append_cons_eq hword hrest.symm
        exact ⟨hc, z, hz.symm⟩
      · rintro ⟨hc, hprefix⟩
        exact ⟨hc, hprefix.trans ⟨mark :: y, rfl⟩⟩
    rw [List.cons_append, placesOf_cons, hsame, ih, placesOf_cons (x := x)]
    omega

theorem placesOf_eq_zero_iff : placesOf (mark :: word) x = 0 ↔ ¬ mark :: word <:+: x := by
  induction x with
  | nil => simp [placesOf]
  | cons c x ih =>
    rw [List.infix_cons_iff, not_or, ← ih, ← List.isPrefixOf_iff_prefix, placesOf_cons]
    by_cases h : (mark :: word).isPrefixOf (c :: x) = true
    · simp [h]
    · simp [h]

/-! ### Texts in which no place begins -/

theorem placesOf_append_of_keepsApart (h : keepsApart word x = true) (y : Text) :
    placesOf word (x ++ y) = placesOf word y := by
  induction x with
  | nil => rfl
  | cons c x ih =>
    simp only [keepsApart, Bool.and_eq_true, Bool.not_eq_true', ← Bool.not_eq_true,
      List.isPrefixOf_iff_prefix] at h
    obtain ⟨⟨hword, htext⟩, hrest⟩ := h
    have hnot : ¬ word <+: c :: (x ++ y) := by
      intro hprefix
      rcases List.prefix_or_prefix_of_prefix hprefix (List.prefix_append (c :: x) y) with hshort | hlong
      · exact hword hshort
      · exact htext hlong
    rw [List.cons_append, placesOf_cons_of_not_prefix hnot, ih hrest]

theorem keepsApart_of_not_mem (h : mark ∉ x) : keepsApart (mark :: word) x = true := by
  induction x with
  | nil => rfl
  | cons c x ih =>
    rw [List.mem_cons, not_or] at h
    have hmark : (mark == c) = false := beq_eq_false_iff_ne.mpr h.1
    have hmark' : (c == mark) = false := beq_eq_false_iff_ne.mpr (Ne.symm h.1)
    simp [keepsApart, List.isPrefixOf, hmark, hmark', ih h.2]

end Shortcode.Text

namespace Shortcode.Cut

/-- The parts of a cut lie apart, so what stands in them stands in the text. -/
theorem placesIn_le {α : Type} {grammar : Grammar α} {cut : Cut α} (h : cut.IsLeftmost grammar)
    {part? : α → Text} (hpart : ∀ part a, grammar part a → part? a <:+: part) (word : Text) :
    Text.placesIn word (cut.values.map part?) ≤ Text.placesOf word cut.text := by
  induction cut with
  | last gap => exact Nat.zero_le _
  | next gap part a rest ih =>
    obtain ⟨-, hgrammar, hrest⟩ := h
    have hhead := Text.placesOf_le_of_infix word (hpart part a hgrammar)
    have htail := ih hrest
    have hfront := Text.placesOf_add_le word gap part
    have hback := Text.placesOf_add_le word (gap ++ part) rest.text
    simp only [values, text, List.map_cons, Text.placesIn]
    omega

end Shortcode.Cut
