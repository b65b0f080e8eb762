import Shortcode.Text.Basic

/-! # Leftmost scanning

A reader recognises something at the start of a text and answers it together with the rest of the
text. Scanning tries a reader at every place from left to right; after a hit it goes on behind the
recognised part, so that hits never overlap, and every character outside the hits is kept. -/

namespace Shortcode

/-- A reader of values of type `α` from the start of a text. -/
abbrev Reader (α : Type) := Text → Option (α × Text)

/-- A part of a scanned text: a character outside every hit, or a hit. -/
inductive Segment (α : Type) where
  | gap (c : Char)
  | hit (value : α)
deriving DecidableEq, Repr

namespace Segment

variable {α : Type}

def value? : Segment α → Option α
  | gap _ => none
  | hit a => some a

end Segment

namespace Scan

variable {α : Type}

/-- The segments of a text whose first `skip` characters belong to an earlier hit. -/
def segmentsFrom (read? : Reader α) : Nat → Text → List (Segment α)
  | _, [] => []
  | skip + 1, _ :: text => segmentsFrom read? skip text
  | 0, c :: text =>
    match read? (c :: text) with
    | some (a, rest) => .hit a :: segmentsFrom read? (text.length - rest.length) text
    | none => .gap c :: segmentsFrom read? 0 text

def segments (read? : Reader α) (text : Text) : List (Segment α) :=
  segmentsFrom read? 0 text

def hits (read? : Reader α) (text : Text) : List α :=
  (segments read? text).filterMap Segment.value?

theorem segmentsFrom_eq_drop (read? : Reader α) (skip : Nat) (text : Text) :
    segmentsFrom read? skip text = segments read? (text.drop skip) := by
  induction text generalizing skip with
  | nil => cases skip <;> simp [segments, segmentsFrom]
  | cons c text ih =>
    cases skip with
    | zero => rfl
    | succ skip => simpa [segmentsFrom] using ih skip

@[simp] theorem segments_nil (read? : Reader α) : segments read? [] = [] := rfl

theorem segments_cons_of_none {read? : Reader α} {c : Char} {text : Text}
    (h : read? (c :: text) = none) :
    segments read? (c :: text) = .gap c :: segments read? text := by
  simp [segments, segmentsFrom, h]

/-- After a hit the scan goes on with what the reader left. -/
theorem segments_of_some {read? : Reader α} {part rest : Text} {a : α} (hpart : part ≠ [])
    (h : read? (part ++ rest) = some (a, rest)) :
    segments read? (part ++ rest) = .hit a :: segments read? rest := by
  cases part with
  | nil => contradiction
  | cons c part =>
    have hskip : (part ++ rest).length - rest.length = part.length := by simp
    simp only [List.cons_append] at h ⊢
    rw [segments, segmentsFrom, h]
    simp only [hskip]
    rw [segmentsFrom_eq_drop, List.drop_left]

end Scan

end Shortcode
