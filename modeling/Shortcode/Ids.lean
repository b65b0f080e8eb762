import Shortcode.Text.Basic

/-! # Element IDs

Every widget draws an ID that begins with the stem of its kind. A source of IDs answers from the
stems that were drawn before, so one source serves any number of texts. -/

namespace Shortcode

/-- A source of element IDs: the ID for a stem after the given earlier stems, latest first. -/
structure Ids where
  next : List Text → Text → Text

namespace Ids

/-- Numbers the IDs from one, with one count for all stems. -/
def sequential : Ids where
  next drawn stem := stem ++ '-' :: Text.decimal (drawn.length + 1)

def suffixed (suffix : Text) : Ids where
  next _ stem := stem ++ suffix

def drawAll (ids : Ids) : List Text → List Text → List Text
  | _, [] => []
  | drawn, stem :: stems => ids.next drawn stem :: drawAll ids (stem :: drawn) stems

end Ids

abbrev Entropy := Vector UInt8 16

namespace Entropy

def hexByte (b : UInt8) : Text :=
  [Nat.digitChar (b.toNat / 16), Nat.digitChar (b.toNat % 16)]

/-- The bytes of a random UUID: the version 4 stands in the upper half of byte 6 and the variant
in the upper two bits of byte 8. -/
def uuidBytes (e : Entropy) : List UInt8 :=
  e.toList.mapIdx fun i b =>
    if i = 6 then (b &&& 0x0f) ||| 0x40 else if i = 8 then (b &&& 0x3f) ||| 0x80 else b

def uuid (e : Entropy) : Text :=
  (uuidBytes e).flatMap hexByte

def mix (w : UInt64) : UInt64 :=
  let w := (w ^^^ (w >>> 30)) * 0xbf58476d1ce4e5b9
  let w := (w ^^^ (w >>> 27)) * 0x94d049bb133111eb
  w ^^^ (w >>> 31)

/-- An unbounded supply of bytes from two random words: the words of a Weyl sequence, mixed. -/
def stream (a b : UInt64) (n : Nat) : Entropy :=
  let step := UInt64.ofNat (n + 1) * 0x9e3779b97f4a7c15
  Vector.ofFn fun i : Fin 16 =>
    (mix ((if i.val < 8 then a else b) + step) >>> UInt64.ofNat (8 * (i.val % 8))).toUInt8

end Entropy

/-- The number of digits that a random ID takes from a UUID; the last of them is the version. -/
def Ids.randomDigits : Nat := 13

def Ids.random (entropy : Nat → Entropy) : Ids where
  next drawn stem := stem ++ '-' :: ((entropy drawn.length).uuid.take randomDigits)

end Shortcode
