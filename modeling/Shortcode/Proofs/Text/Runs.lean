import Shortcode.Text.Blank

/-! # Runs of characters

A text divides at the first place of a character, or behind its blanks, in one way only. -/

namespace Shortcode.Text

theorem takeWhile_ne_append {c : Char} {text : Text} (h : c ∉ text) (rest : Text) :
    (text ++ c :: rest).takeWhile (· ≠ c) = text := by
  have hne : ∀ x ∈ text, (decide (x ≠ c)) = true := by
    intro x hx
    exact decide_eq_true fun heq => h (heq ▸ hx)
  rw [List.takeWhile_append_of_pos hne]
  simp

theorem dropWhile_ne_append {c : Char} {text : Text} (h : c ∉ text) (rest : Text) :
    (text ++ c :: rest).dropWhile (· ≠ c) = c :: rest := by
  have hne : ∀ x ∈ text, (decide (x ≠ c)) = true := by
    intro x hx
    exact decide_eq_true fun heq => h (heq ▸ hx)
  rw [List.dropWhile_append_of_pos hne]
  simp

theorem not_mem_takeWhile_ne (c : Char) (text : Text) : c ∉ text.takeWhile (· ≠ c) := by
  intro hmem
  have h := List.all_takeWhile (p := fun x : Char => decide (x ≠ c)) (l := text)
  rw [List.all_eq_true] at h
  simpa using h c hmem

/-- A text that goes on behind a run up to a character goes on with that character. -/
theorem eq_append_of_dropWhile_ne {c d : Char} {text rest : Text}
    (h : text.dropWhile (· ≠ c) = d :: rest) : text = text.takeWhile (· ≠ c) ++ c :: rest := by
  have hhead := List.head?_dropWhile_not (fun x : Char => decide (x ≠ c)) text
  rw [h] at hhead
  have hd : d = c := by simpa using hhead
  rw [hd] at h
  rw [← h, List.takeWhile_append_dropWhile]

theorem trimStart_append {blanks text : Text} (hblanks : ∀ c ∈ blanks, isBlank c = true)
    (htext : ∀ c ∈ text.head?, isBlank c = false) :
    trimStart (blanks ++ text) = text := by
  unfold trimStart
  rw [List.dropWhile_append_of_pos hblanks]
  cases text with
  | nil => rfl
  | cons c text =>
    have hc := htext c rfl
    simp [hc]

theorem exists_blanks (text : Text) :
    ∃ blanks, text = blanks ++ trimStart text ∧ (∀ c ∈ blanks, isBlank c = true) ∧
      ∀ c ∈ (trimStart text).head?, isBlank c = false := by
  refine ⟨text.takeWhile isBlank, List.takeWhile_append_dropWhile.symm, ?_, ?_⟩
  · have h := List.all_takeWhile (p := isBlank) (l := text)
    exact List.all_eq_true.mp h
  · intro c hc
    have hhead := List.head?_dropWhile_not isBlank text
    unfold trimStart at hc
    rw [Option.mem_def.mp hc] at hhead
    exact hhead

theorem trim_eq_self {text : Text} (h : ∀ c ∈ text, isBlank c = false) : trim text = text := by
  have hkept : ∀ text : Text, (∀ c ∈ text, isBlank c = false) → text.dropWhile isBlank = text := by
    intro text h
    cases text with
    | nil => rfl
    | cons c text => rw [List.dropWhile_cons_of_neg (by simp [h c (List.mem_cons_self ..)])]
  rw [trim, trimEnd, dropEndWhile, trimStart, hkept text h, hkept text.reverse, List.reverse_reverse]
  exact fun c hc => h c (List.mem_reverse.mp hc)

theorem trim_isInfix (text : Text) : trim text <:+: text := by
  have hstart : trimStart text <:+ text := List.dropWhile_suffix isBlank
  have hend : trimEnd (trimStart text) <+: trimStart text := by
    have hsuffix := List.dropWhile_suffix (l := (trimStart text).reverse) isBlank
    rw [← List.reverse_prefix, List.reverse_reverse] at hsuffix
    exact hsuffix
  exact hend.isInfix.trans hstart.isInfix

end Shortcode.Text
