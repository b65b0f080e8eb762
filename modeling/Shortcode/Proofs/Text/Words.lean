import Shortcode.Text.Basic

/-! # Words in joined texts

A word that lacks a character stands on one side of it, and a word begins in one of the two texts
that are joined. -/

namespace Shortcode.Text

variable {word x y : Text} {c : Char}

theorem isInfix_of_append_cons (hc : c ∉ word) (h : word <:+: x ++ c :: y) :
    word <:+: x ∨ word <:+: y := by
  obtain ⟨before, after, heq⟩ := h
  rcases List.append_eq_append_iff.mp heq with ⟨z, rfl, -⟩ | ⟨z, hz, hy⟩
  · exact .inl ⟨before, z, rfl⟩
  · cases z with
    | nil =>
      rw [List.append_nil] at hz
      exact .inl ⟨before, [], by rw [hz, List.append_nil]⟩
    | cons d z =>
      obtain ⟨rfl, rfl⟩ := List.cons.inj hy
      -- The word ends behind the character, so it starts behind it as well.
      rcases List.append_eq_append_iff.mp hz with ⟨u, -, rfl⟩ | ⟨u, -, hu⟩
      · simp at hc
      · cases u with
        | nil =>
          rw [List.nil_append] at hu
          rw [← hu] at hc
          simp at hc
        | cons d u =>
          obtain ⟨-, rfl⟩ := List.cons.inj hu
          exact .inr ⟨u, after, rfl⟩

theorem occursIn_eq_true_iff : occursIn word x = true ↔ word <:+: x := by
  induction x with
  | nil => simp [occursIn]
  | cons c x ih =>
    rw [occursIn, Bool.or_eq_true, ih, List.isPrefixOf_iff_prefix, List.infix_cons_iff]

/-- A word that does not begin in the first of two texts stands in the second. -/
theorem isInfix_of_head_not_mem (hc : c ∉ x) (h : c :: word <:+: x ++ y) : c :: word <:+: y := by
  obtain ⟨before, after, heq⟩ := h
  rw [List.append_assoc] at heq
  rcases List.append_eq_append_iff.mp heq with ⟨z, rfl, hz⟩ | ⟨z, -, hz⟩
  · cases z with
    | nil => exact ⟨[], after, hz⟩
    | cons d z =>
      obtain ⟨rfl, -⟩ := List.cons.inj hz
      simp at hc
  · exact ⟨z, after, by rw [hz, List.append_assoc]⟩

/-- A character that is not in the front of a text stands behind it. -/
theorem exists_of_append_cons_eq {front rest : Text} (hc : c ∉ front)
    (h : x ++ c :: y = front ++ rest) : ∃ z, x = front ++ z ∧ rest = z ++ c :: y := by
  rcases List.append_eq_append_iff.mp h with ⟨z, rfl, hz⟩ | ⟨z, hx, hz⟩
  · cases z with
    | nil => exact ⟨[], by simp, hz.symm⟩
    | cons d z =>
      obtain ⟨rfl, -⟩ := List.cons.inj hz
      simp at hc
  · exact ⟨z, hx, hz⟩

/-- A text divides at the first place of a character in one way. -/
theorem append_cons_inj {x' y' : Text} (hx : c ∉ x) (hx' : c ∉ x')
    (h : x ++ c :: y = x' ++ c :: y') : x = x' ∧ y = y' := by
  obtain ⟨z, rfl, hz⟩ := exists_of_append_cons_eq hx' h
  cases z with
  | nil => exact ⟨List.append_nil x', (List.cons.inj hz).2.symm⟩
  | cons d z =>
    obtain ⟨rfl, -⟩ := List.cons.inj hz
    simp at hx

/-- A word that begins with a character and holds no other one stands in front of a place of that
character, or from there on. -/
theorem isInfix_of_append_cons_head (hc : c ∉ word) (h : c :: word <:+: x ++ c :: y) :
    c :: word <:+: x ∨ c :: word <:+: c :: y := by
  obtain ⟨before, after, heq⟩ := h
  rw [List.append_assoc] at heq
  rcases List.append_eq_append_iff.mp heq with ⟨z, rfl, hz⟩ | ⟨z, -, hz⟩
  · cases z with
    | nil => exact .inr ⟨[], after, hz⟩
    | cons d z =>
      obtain ⟨rfl, htail⟩ := List.cons.inj hz
      obtain ⟨u, rfl, -⟩ := exists_of_append_cons_eq hc htail.symm
      exact .inl ⟨before, u, by simp⟩
  · exact .inr ⟨z, after, by rw [hz, List.append_assoc]⟩

end Shortcode.Text
