import Shortcode.Text.Basic

/-! # Decimal digits

A number in a text is read back from its digits, and so is the first number in a text. -/

namespace Shortcode.Text

variable {c : Char} {m n : Nat} {before after : Text}

theorem isDigit_of_mem_decimal (h : c ∈ decimal n) : c.isDigit = true :=
  Nat.isDigit_of_mem_toDigits (by omega) (by omega) h

theorem not_mem_decimal (hc : c.isDigit = false) : c ∉ decimal n := by
  intro h
  rw [isDigit_of_mem_decimal h] at hc
  cases hc

theorem decimal_ne_nil (n : Nat) : decimal n ≠ [] :=
  Nat.toDigits_ne_nil

theorem decimal_inj : decimal m = decimal n ↔ m = n := by
  constructor
  · intro h
    have hm := Nat.ofDigitChars_ten_toDigits (n := m)
    have hn := Nat.ofDigitChars_ten_toDigits (n := n)
    unfold decimal at h
    rw [← hm, ← hn, h]
  · rintro rfl
    rfl

theorem digit?_eq_some_iff {d : Nat} :
    digit? c = some d ↔ c.isDigit = true ∧ c.toNat - '0'.toNat = d := by
  have hdigit : c.isDigit = true ↔ '0' ≤ c ∧ c ≤ '9' := by
    simp [Char.isDigit, Char.le_def]
  rw [digit?, hdigit]
  split
  · next h => simp [h]
  · next h => simp [h]

/-- A numeral is one or more digits, and it is read as the number that they write. -/
theorem numeral?_eq_some_iff {digits : Text} :
    numeral? 10 digit? digits = some n ↔
      digits ≠ [] ∧ (∀ c ∈ digits, c.isDigit = true) ∧ Nat.ofDigitChars 10 digits 0 = n := by
  have hnone : ∀ digits : Text, digits.foldl
      (fun n? c => n?.bind fun n => (digit? c).map (10 * n + ·)) (none : Option Nat) = none := by
    intro digits
    induction digits with
    | nil => rfl
    | cons c digits ih => exact ih
  -- The number read so far is the accumulator of both sides.
  have hread : ∀ (digits : Text) (m : Nat), digits.foldl
      (fun n? c => n?.bind fun n => (digit? c).map (10 * n + ·)) (some m) = some n ↔
        (∀ c ∈ digits, c.isDigit = true) ∧ Nat.ofDigitChars 10 digits m = n := by
    intro digits
    induction digits with
    | nil => simp
    | cons c digits ih =>
      intro m
      rw [List.foldl_cons, List.forall_mem_cons, Nat.ofDigitChars_cons, Option.bind_some]
      by_cases hc : c.isDigit = true
      · rw [digit?_eq_some_iff.mpr ⟨hc, rfl⟩, Option.map_some, ih]
        simp [hc]
      · have hlacks : digit? c = none := by
          refine Option.eq_none_iff_forall_ne_some.mpr fun d hd => ?_
          exact hc (digit?_eq_some_iff.mp hd).1
        rw [hlacks, Option.map_none, hnone]
        simp [hc]
  cases digits with
  | nil => simp [numeral?]
  | cons c digits =>
    rw [numeral?, hread]
    · simp
    · exact List.cons_ne_nil c digits

/-- A numeral holds nothing but digits. -/
theorem numeral?_eq_none {base : Nat} {digit? : Char → Option Nat} {digits : Text}
    (hc : c ∈ digits) (hdigit : digit? c = none) : numeral? base digit? digits = none := by
  have hfold : ∀ (digits : Text) (n? : Option Nat), c ∈ digits ∨ n? = none → digits.foldl
      (fun n? c => n?.bind fun n => (digit? c).map (base * n + ·)) n? = none := by
    intro digits
    induction digits with
    | nil => simp
    | cons d digits ih =>
      intro n? h
      refine ih _ ?_
      rcases h with hmem | rfl
      · rcases List.mem_cons.mp hmem with rfl | hmem
        · exact .inr (by cases n? <;> simp [hdigit])
        · exact .inl hmem
      · exact .inr rfl
  obtain ⟨d, digits, rfl⟩ := List.exists_cons_of_ne_nil (List.ne_nil_of_mem hc)
  exact hfold _ _ (.inl hc)

/-- The digits of the first number in a text. -/
def firstNumber (text : Text) : Text :=
  (text.dropWhile (! ·.isDigit)).takeWhile Char.isDigit

theorem firstNumber_append (hbefore : ∀ c ∈ before, c.isDigit = false)
    (hafter : ∀ c ∈ after.head?, c.isDigit = false) :
    firstNumber (before ++ (decimal n ++ after)) = decimal n := by
  have hskip : ∀ c ∈ before, (! c.isDigit) = true := by
    intro c hc
    rw [hbefore c hc]
    rfl
  have hstart : (decimal n ++ after).dropWhile (! ·.isDigit) = decimal n ++ after := by
    obtain ⟨d, digits, hdigits⟩ := List.exists_cons_of_ne_nil (decimal_ne_nil n)
    have hd : d.isDigit = true := isDigit_of_mem_decimal (n := n) (by rw [hdigits]; simp)
    rw [hdigits]
    simp [hd]
  have hstop : after.takeWhile Char.isDigit = [] := by
    cases after with
    | nil => rfl
    | cons c after => simp [hafter c rfl]
  rw [firstNumber, List.dropWhile_append_of_pos hskip, hstart,
    List.takeWhile_append_of_pos fun _ hc => isDigit_of_mem_decimal hc, hstop, List.append_nil]

end Shortcode.Text
