import Mathlib.Data.List.Basic
import Shortcode.Files.Tree

/-! # Written files

A text that is written to a path can be read from it afterwards, and every other place keeps what it
has. -/

namespace Shortcode

theorem exists_of_bind_eq_ok {ε α β : Type} {x : Except ε α} {f : α → Except ε β} {b : β}
    (h : x >>= f = .ok b) : ∃ a, x = .ok a ∧ f a = .ok b := by
  cases x with
  | error e => cases h
  | ok a => exact ⟨a, rfl, h⟩

namespace FileTree

variable {t : FileTree} {cwd start place p : Place} {path text : Text} {content : ByteArray}

theorem decode_toUTF8 (text : Text) : decode (String.ofList text).toUTF8 = .ok text := by
  have hback : String.fromUTF8? (String.ofList text).toUTF8 = some (String.ofList text) := by
    rw [String.toUTF8_eq_toByteArray, String.fromUTF8?, dif_pos (String.ofList text).isValidUTF8]
    rfl
  rw [decode, hback]
  dsimp only
  rw [String.toList_ofList]

/-! ### Ways through a tree -/

theorem requireDirectory_eq_ok_iff {u : Unit} :
    t.requireDirectory p = .ok u ↔ t p = some .directory := by
  rw [requireDirectory]
  split <;> simp [*]

/-- Where a part of a path leads to from a directory. -/
def beyond (start : Place) (part : Text) : Place :=
  if part = "." then start else if part = ".." then start.dropLast else start ++ [part]

theorem follow_cons (t : FileTree) (start : Place) (part : Text) (parts : List Text) :
    t.follow start (part :: parts) =
      (t.requireDirectory start >>= fun _ => requireName part >>= fun _ =>
        t.follow (beyond start part) parts) := by
  rw [follow, beyond]
  congr 1
  funext _
  congr 1
  funext _
  split
  · rfl
  · split <;> rfl

theorem follow_append (t : FileTree) (start : Place) (front back : List Text) :
    t.follow start (front ++ back) = t.follow start front >>= (t.follow · back) := by
  induction front generalizing start with
  | nil => rfl
  | cons part front ih =>
    rw [List.cons_append, follow_cons, follow_cons, ih]
    cases t.requireDirectory start with
    | error e => rfl
    | ok _ => cases requireName part <;> rfl

/-- What a file tree is after a text is written to a path: the path leads to the text, and all places
but that of the path are as before. -/
structure Written (t : FileTree) (cwd : Place) (path text : Text) (t' : FileTree) : Prop where
  read_eq : t'.read cwd path = .ok text
  others : ∃ place, t.writable cwd path = .ok place ∧ ∀ p, p ≠ place → t' p = t p

end FileTree

end Shortcode
