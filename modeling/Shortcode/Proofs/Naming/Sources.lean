import Shortcode.Proofs.Expansion.Settled
import Shortcode.Proofs.Naming.Woven
import Shortcode.Proofs.Text.Digits

/-! # Sources of plain IDs

Numbered and random IDs are plain. What two sources give for the same draws stands for each other,
and texts that are woven from such IDs fill the holes of one pattern. -/

namespace Shortcode

open Markup

/-! ### Plain IDs -/

theorem Text.isPlain_append {x y : Text} :
    (x ++ y).isPlain = true ↔ x.isPlain = true ∧ y.isPlain = true := by
  simp only [isPlain, List.all_append, Bool.and_eq_true]

theorem Kind.isPlain_stem (k : Kind) : k.stem.isPlain = true := by
  cases k <;> decide

namespace Ids

/-- The IDs of the source are made of ASCII letters, digits and dashes. -/
def IsPlain (ids : Ids) : Prop :=
  ∀ drawn (k : Kind), (ids.next drawn k.stem).isPlain = true

theorem isPlain_of_ending {ids : Ids} {ending : List Text → Text}
    (hids : ∀ drawn stem, ids.next drawn stem = stem ++ ending drawn)
    (h : ∀ drawn, (ending drawn).isPlain = true) : ids.IsPlain := by
  intro drawn k
  rw [hids]
  exact Text.isPlain_append.mpr ⟨k.isPlain_stem, h drawn⟩

theorem isPlain_sequential : sequential.IsPlain := by
  refine isPlain_of_ending (fun _ _ => rfl) fun drawn => ?_
  have hdigits : (Text.decimal (drawn.length + 1)).isPlain = true := by
    refine List.all_eq_true.mpr fun c hc => ?_
    have hdigit := Text.isDigit_of_mem_decimal hc
    simp [Char.isAlphanum, hdigit]
  exact hdigits

theorem isPlain_random (entropy : Nat → Entropy) : (random entropy).IsPlain := by
  refine isPlain_of_ending (fun _ _ => rfl) fun drawn => ?_
  have hdigit : ∀ n < 16, (Nat.digitChar n).isAlphanum = true := by decide
  have hbyte : ∀ b, ∀ c ∈ Entropy.hexByte b, c.isAlphanum = true := by
    intro b c hc
    have hhigh := hdigit (b.toNat / 16) (by have := b.toNat_lt; omega)
    have hlow := hdigit (b.toNat % 16) (by omega)
    simp only [Entropy.hexByte, List.mem_cons, List.not_mem_nil, or_false] at hc
    rcases hc with rfl | rfl
    · exact hhigh
    · exact hlow
  have hdigits : Text.isPlain ((entropy drawn.length).uuid.take randomDigits) = true := by
    refine List.all_eq_true.mpr fun c hc => ?_
    obtain ⟨b, -, hb⟩ := List.mem_flatMap.mp (List.mem_of_mem_take hc)
    simp [hbyte b c hb]
  exact hdigits

/-! ### Draws -/

variable (ids ids' : Ids)

@[simp] theorem length_drawAll (drawn stems : List Text) :
    (ids.drawAll drawn stems).length = stems.length := by
  induction stems generalizing drawn with
  | nil => rfl
  | cons stem stems ih => simp [drawAll, ih]

theorem drawAll_append (drawn stems stems' : List Text) :
    ids.drawAll drawn (stems ++ stems') =
      ids.drawAll drawn stems ++ ids.drawAll (stems.reverse ++ drawn) stems' := by
  induction stems generalizing drawn with
  | nil => rfl
  | cons stem stems ih => simp [drawAll, ih]

/-- IDs that two sources give for the same draw, which is one behind `base` among `drawn`. -/
def Counterparts (base drawn : List Text) (u v : Text) : Prop :=
  ∃ (k : Kind) (earlier : List Text), base <:+ earlier ∧ k.stem :: earlier <:+ drawn ∧
    u = ids.next earlier k.stem ∧ v = ids'.next earlier k.stem

variable {ids ids'} {base drawn : List Text}

theorem Counterparts.mono {drawn' : List Text} (hdrawn : drawn <:+ drawn') :
    ∀ u v, ids.Counterparts ids' base drawn u v → ids.Counterparts ids' base drawn' u v := by
  rintro u v ⟨k, earlier, hbase, hsuffix, hu, hv⟩
  exact ⟨k, earlier, hbase, hsuffix.trans hdrawn, hu, hv⟩

theorem plainNames_counterparts (h : ids.IsPlain) (h' : ids'.IsPlain) (base drawn : List Text) :
    PlainNames (ids.Counterparts ids' base drawn) := by
  rintro u v ⟨k, earlier, -, -, rfl, rfl⟩
  exact ⟨h earlier k, h' earlier k⟩

/-- The place of a draw tells which ID of each source it gives. -/
theorem Counterparts.exists_place {stems : List Text} {u v : Text}
    (h : ids.Counterparts ids' base (stems.reverse ++ base) u v) :
    ∃ i < stems.length, (ids.drawAll base stems)[i]? = some u ∧
      (ids'.drawAll base stems)[i]? = some v := by
  obtain ⟨k, _, ⟨between, rfl⟩, ⟨behind, hstems⟩, rfl, rfl⟩ := h
  -- The draws are listed latest first: `between` lies between `base` and this draw.
  have hreverse : stems.reverse = behind ++ k.stem :: between := by
    rw [← List.append_cancel_right_eq _ base]
    simpa using hstems.symm
  have heq : stems = between.reverse ++ k.stem :: behind.reverse := by
    rw [← List.reverse_reverse stems, hreverse]
    simp
  subst heq
  have hplace : ∀ ids : Ids, (ids.drawAll base (between.reverse ++ k.stem :: behind.reverse))[
      between.length]? = some (ids.next (between ++ base) k.stem) := by
    intro ids
    rw [drawAll_append, List.getElem?_append_right (by simp)]
    simp [drawAll]
  exact ⟨between.length, by simp, hplace ids, hplace ids'⟩

end Ids

/-! ### Patterns -/

/-- Text, or the hole for one of a list of IDs. -/
inductive Pattern.Piece where
  | literal (text : Text)
  | hole (i : Nat)
deriving DecidableEq, Repr

/-- Text with numbered holes. -/
abbrev Pattern := List Pattern.Piece

namespace Pattern

def Piece.fill (ids : List Text) : Piece → Text
  | literal text => text
  | hole i => ids.getD i []

/-- The text with an ID in every hole. -/
def fill (ids : List Text) (pattern : Pattern) : Text :=
  pattern.flatMap (Piece.fill ids)

/-- Every hole of the pattern has one of the first numbers. -/
def FitsIn (count : Nat) (pattern : Pattern) : Prop :=
  ∀ i, Piece.hole i ∈ pattern → i < count

end Pattern

/-- Woven texts are one pattern, filled with the IDs of the one source and of the other. -/
theorem Woven.exists_pattern {ids ids' : Ids} {base stems : List Text} {x y : Text}
    (h : Woven (ids.Counterparts ids' base (stems.reverse ++ base)) x y) :
    ∃ pattern : Pattern, pattern.FitsIn stems.length ∧ x = pattern.fill (ids.drawAll base stems) ∧
      y = pattern.fill (ids'.drawAll base stems) := by
  induction h with
  | nil => exact ⟨[], by simp [Pattern.FitsIn], rfl, rfl⟩
  | char c _ ih =>
    obtain ⟨pattern, hfits, rfl, rfl⟩ := ih
    exact ⟨.literal [c] :: pattern, by simpa [Pattern.FitsIn] using hfits, rfl, rfl⟩
  | @anchor _ _ _ _ a closing _ hname _ _ ih =>
    obtain ⟨pattern, hfits, rfl, rfl⟩ := ih
    obtain ⟨i, hi, hu, hv⟩ := hname.exists_place
    refine ⟨.literal a.opening :: .hole i :: .literal [closing] :: pattern, ?_, ?_, ?_⟩
    · intro j hj
      simp only [List.mem_cons, reduceCtorEq, false_or, Pattern.Piece.hole.injEq] at hj
      rcases hj with rfl | hj
      · exact hi
      · exact hfits j hj
    · simp [Pattern.fill, Pattern.Piece.fill, Anchor.around, hu]
    · simp [Pattern.fill, Pattern.Piece.fill, Anchor.around, hv]

end Shortcode
