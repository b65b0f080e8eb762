import Shortcode.Proofs.Yaml.Padding
import Shortcode.Yaml.Outline

/-! # Outlines of padded texts

An outline refers to lines, columns and distances. So it is the same for a text and for a part of it
that starts a line, apart from the positions where keys may have started. -/

namespace Shortcode.Yaml

/-- The start of a key in a longer text whose part starts a line at `start`. -/
def KeyStart.below (k : KeyStart) (start : Mark) : KeyStart :=
  { k with mark := k.mark.below start }

namespace Outline

/-- The outline of a longer text whose part starts a line at `start`. -/
def below (o : Outline) (start : Mark) : Outline :=
  { o with
    key? := o.key?.map (·.below start)
    outerKeys := o.outerKeys.map (Option.map (·.below start)) }

variable {o : Outline} {start m : Mark} {t : Token}

@[simp] theorem below_inFlow : (o.below start).inFlow = o.inFlow := by
  simp [inFlow, below]

@[simp] theorem below_columns : (o.below start).columns = o.columns := rfl

@[simp] theorem below_keyAllowed : (o.below start).keyAllowed = o.keyAllowed := rfl

theorem below_allowKey {allowed : Bool} :
    (o.below start).allowKey allowed = (o.allowKey allowed).below start := rfl

theorem below_insert {place : Nat} :
    (o.below start).insert place t = (o.insert place t).below start := rfl

theorem below_closeBlocks {column? : Option Nat} :
    (o.below start).closeBlocks column? = (o.closeBlocks column?).below start := by
  unfold closeBlocks
  rw [below_inFlow]
  cases o.inFlow <;> rfl

theorem below_openBlock {column place : Nat} :
    (o.below start).openBlock column place t = (o.openBlock column place t).below start := by
  unfold openBlock
  rw [below_inFlow, below_columns]
  split
  · rfl
  · rfl

theorem forget?_below (k? : Option KeyStart) :
    forget? (k?.map (·.below start)) = (forget? k?).map (Option.map (·.below start)) := by
  cases k? with
  | none => rfl
  | some k =>
    cases hrequired : k.required <;> simp [forget?, KeyStart.below, hrequired]

theorem isStale_below (k : KeyStart) :
    KeyStart.isStale (k.below start) (m.below start) = KeyStart.isStale k m := by
  have hline : start.line + k.mark.line < start.line + m.line ↔ k.mark.line < m.line := by omega
  have hoffset : start.offset + k.mark.offset + 1024 < start.offset + m.offset ↔
      k.mark.offset + 1024 < m.offset := by omega
  simp [KeyStart.isStale, KeyStart.below, Mark.below, hline, hoffset]

theorem forgetStale?_below (k? : Option KeyStart) :
    forgetStale? (m.below start) (k?.map (·.below start)) =
      (forgetStale? m k?).map (Option.map (·.below start)) := by
  cases k? with
  | none => rfl
  | some k =>
    rw [Option.map_some, forgetStale?, forgetStale?, isStale_below]
    split
    · exact forget?_below (some k)
    · rfl

theorem below_dropStale? :
    (o.below start).dropStale? (m.below start) = (o.dropStale? m).map (·.below start) := by
  have houter : (o.outerKeys.map (Option.map (·.below start))).mapM (forgetStale? (m.below start)) =
      (o.outerKeys.mapM (forgetStale? m)).map (List.map (Option.map (·.below start))) := by
    induction o.outerKeys with
    | nil => rfl
    | cons k? outer ih =>
      rw [List.map_cons, List.mapM_cons, List.mapM_cons, ih, forgetStale?_below]
      cases forgetStale? m k? with
      | none => rfl
      | some k? => cases outer.mapM (forgetStale? m) <;> rfl
  unfold dropStale? below
  dsimp only
  rw [forgetStale?_below, houter]
  cases forgetStale? m o.key? with
  | none => rfl
  | some key? => cases o.outerKeys.mapM (forgetStale? m) <;> rfl

/-- A step that follows another one is the same below if it is so itself. -/
theorem bind_below {x : Option Outline} {f : Outline → Option Outline}
    (hf : ∀ o : Outline, f (o.below start) = (f o).map (·.below start)) :
    (x.map (·.below start) >>= f) = (x >>= f).map (·.below start) := by
  cases x with
  | none => rfl
  | some o => exact hf o

theorem below_dropKey? : (o.below start).dropKey? = o.dropKey?.map (·.below start) := by
  unfold dropKey? below
  dsimp only
  rw [forget?_below]
  cases forget? o.key? <;> rfl

theorem below_startKey? :
    (o.below start).startKey? (m.below start) = (o.startKey? m).map (·.below start) := by
  unfold startKey?
  rw [below_inFlow, below_keyAllowed, below_columns]
  split
  · rw [below, forget?_below]
    cases forget? o.key? <;> rfl
  · rfl

theorem below_openFlow? :
    (o.below start).openFlow? (m.below start) t = (o.openFlow? m t).map (·.below start) := by
  unfold openFlow?
  rw [below_startKey?]
  exact bind_below fun _ => rfl

theorem below_closeFlow? :
    (o.below start).closeFlow? t = (o.closeFlow? t).map (·.below start) := by
  unfold closeFlow?
  rw [below_dropKey?]
  refine bind_below fun o => ?_
  obtain ⟨columns, key?, outerKeys, keyAllowed, count, reversed⟩ := o
  cases outerKeys <;> rfl

theorem below_comma? : (o.below start).comma? = o.comma?.map (·.below start) := by
  unfold comma?
  rw [below_dropKey?]
  exact bind_below fun _ => rfl

theorem below_startLine? :
    (o.below start).startLine? (m.below start) t = (o.startLine? m t).map (·.below start) := by
  unfold startLine?
  rw [below_inFlow, below_keyAllowed]
  split
  · rfl
  split
  · exact congrArg some below_openBlock
  · rfl

theorem below_hyphen? :
    (o.below start).hyphen? (m.below start) = (o.hyphen? m).map (·.below start) := by
  unfold hyphen?
  rw [below_startLine?]
  refine bind_below fun o => ?_
  rw [below_dropKey?]
  exact bind_below fun _ => rfl

theorem below_questionMark? :
    (o.below start).questionMark? (m.below start) = (o.questionMark? m).map (·.below start) := by
  unfold questionMark?
  rw [below_startLine?]
  refine bind_below fun o => ?_
  rw [below_dropKey?]
  refine bind_below fun o => ?_
  rw [below_inFlow]
  rfl

theorem below_colon? :
    (o.below start).colon? (m.below start) = (o.colon? m).map (·.below start) := by
  have hkey : (o.below start).key? = o.key?.map (·.below start) := rfl
  unfold colon?
  rw [hkey]
  cases o.key? with
  | none =>
    rw [Option.map_none, below_startLine?]
    refine bind_below fun o => ?_
    rw [below_inFlow]
    rfl
  | some k =>
    rw [Option.map_some]
    dsimp only [KeyStart.below]
    rw [below_insert, Mark.below_column, below_openBlock]
    rfl

theorem below_topLevel? : (o.below start).topLevel? t = (o.topLevel? t).map (·.below start) := by
  unfold topLevel?
  rw [below_closeBlocks, below_dropKey?]
  exact bind_below fun _ => rfl

theorem below_word? :
    (o.below start).word? (m.below start) t = (o.word? m t).map (·.below start) := by
  unfold word?
  rw [below_startKey?]
  exact bind_below fun _ => rfl

theorem below_blockScalar? :
    (o.below start).blockScalar? t = (o.blockScalar? t).map (·.below start) := by
  unfold blockScalar?
  rw [below_dropKey?]
  exact bind_below fun _ => rfl

/-- At the end of the text the open blocks end. -/
theorem finish?_eq (o : Outline) : o.finish? = (forget? o.key?).map fun _ =>
    o.reversed.reverse ++ List.replicate (if o.inFlow then 0 else o.columns.length) .blockEnd := by
  have hall : ∀ columns : List Nat,
      columns.takeWhile (fun c => (none : Option Nat).all (· < c)) = columns := by
    intro columns
    induction columns with
    | nil => rfl
    | cons c columns ih => exact congrArg (c :: ·) ih
  unfold finish? closeBlocks
  cases hflow : o.inFlow with
  | true =>
    rw [if_pos rfl, dropKey?]
    cases forget? o.key? <;> simp
  | false =>
    simp only [hall, dropKey?, Bool.false_eq_true, if_false]
    cases forget? o.key? <;> simp

theorem finish?_below : (o.below start).finish? = o.finish? := by
  rw [finish?_eq, finish?_eq, below_inFlow, below_columns, below, forget?_below, Option.map_map]
  rfl

theorem finish?_allowKey {allowed : Bool} : (o.allowKey allowed).finish? = o.finish? := by
  rw [finish?_eq, finish?_eq]
  rfl

end Outline

end Shortcode.Yaml
