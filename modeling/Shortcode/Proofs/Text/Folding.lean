import Shortcode.Text.Blank
import Shortcode.Text.Folding

/-! # Folding and blanks

Folding changes only characters that fold onto a small ASCII letter, so brackets, quotes and
blanks stand for themselves, and a keyword is read exactly where a spelling of it stands. -/

namespace Shortcode.Text

/-! ### Folded characters -/

/-- A character stands for itself or folds onto a small letter. -/
theorem fold_eq_self_or (c : Char) :
    fold c = c ∨ ('a'.val ≤ (fold c).val ∧ (fold c).val ≤ 'z'.val) := by
  unfold fold
  split
  · exact .inr (by decide)
  · split
    · exact .inr (by decide)
    · unfold Char.toLower
      split
      · rename_i hupper
        refine .inr ?_
        have h1 := UInt32.le_iff_toNat_le.mp hupper.1
        have h2 := UInt32.le_iff_toNat_le.mp hupper.2
        simp only [UInt32.le_iff_toNat_le, UInt32.toNat_add]
        simp at h1 h2 ⊢
        omega
      · exact .inl rfl

/-- A character outside the small letters is only folded onto by itself. -/
theorem eq_of_fold_eq {c d : Char} (hd : d.val < 'a'.val ∨ 'z'.val < d.val) (h : fold c = d) :
    c = d := by
  rcases fold_eq_self_or c with hself | ⟨hge, hle⟩
  · rw [← hself, h]
  · rw [h] at hge hle
    rw [UInt32.le_iff_toNat_le] at hge hle
    simp only [UInt32.lt_iff_toNat_lt] at hd
    omega

theorem fold_of_isBlank {c : Char} (h : isBlank c = true) : fold c = c := by
  have hs : c ≠ '\u017f' := by
    rintro rfl
    exact absurd h (by decide)
  have hk : c ≠ '\u212a' := by
    rintro rfl
    exact absurd h (by decide)
  have hupper : ¬(c.val ≥ 'A'.val ∧ c.val ≤ 'Z'.val) := by
    simp only [isBlank, Bool.or_eq_true, Bool.and_eq_true, decide_eq_true_eq, beq_iff_eq] at h
    simp only [ge_iff_le, UInt32.le_iff_toNat_le, Char.toNat_val]
    have hA : 'A'.toNat = 65 := rfl
    have hZ : 'Z'.toNat = 90 := rfl
    omega
  have hlower : c.toLower = c := dif_neg hupper
  simp only [fold, if_neg hs, if_neg hk, hlower]

/-! ### Folded words -/

/-- A word is read where a text begins with one of its spellings. -/
theorem afterFolded?_eq_some_iff {word text rest : Text} :
    afterFolded? word text = some rest ↔ ∃ part, text = part ++ rest ∧ part.map fold = word := by
  induction word generalizing text with
  | nil =>
    simp only [afterFolded?, Option.some.injEq, List.map_eq_nil_iff]
    constructor
    · rintro rfl
      exact ⟨[], rfl, rfl⟩
    · rintro ⟨part, htext, rfl⟩
      exact htext
  | cons w word ih =>
    cases text with
    | nil =>
      simp only [afterFolded?, reduceCtorEq, false_iff]
      rintro ⟨part, htext, hpart⟩
      rw [(List.append_eq_nil_iff.mp htext.symm).1] at hpart
      simp at hpart
    | cons c text =>
      simp only [afterFolded?]
      constructor
      · intro h
        split at h
        · rename_i hc
          obtain ⟨part, htext, hpart⟩ := ih.mp h
          exact ⟨c :: part, by rw [htext, List.cons_append], by rw [List.map_cons, hc, hpart]⟩
        · simp at h
      · rintro ⟨part, htext, hpart⟩
        obtain ⟨c', part, rfl, hc, hpart⟩ := List.map_eq_cons_iff.mp hpart
        rw [List.cons_append] at htext
        obtain ⟨hhead, htail⟩ := List.cons.inj htext
        rw [← hhead] at hc
        rw [if_pos hc]
        exact ih.mpr ⟨part, htail, hpart⟩

end Shortcode.Text
