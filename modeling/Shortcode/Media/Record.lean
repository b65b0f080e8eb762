import Shortcode.Text.Blank

/-! # Media records

What a library holds: items with a 64-bit ID. An ID is written in decimal; a plus sign before it
and leading zeros do not count when it is read. -/

namespace Shortcode

abbrev MediaId := UInt64

namespace MediaId

def ofNat? (n : Nat) : Option MediaId :=
  if h : n < UInt64.size then some (UInt64.ofNatLT n h) else none

/-- Reads an ID: an optional plus sign and decimal digits. -/
def read? (text : Text) : Option MediaId :=
  let digits := match text with
    | '+' :: rest => rest
    | _ => text
  (Text.numeral? 10 Text.digit? digits).bind ofNat?

def text (id : MediaId) : Text :=
  Text.decimal id.toNat

theorem ofNat?_eq_some_iff {n : Nat} {id : MediaId} : ofNat? n = some id ↔ id.toNat = n := by
  unfold ofNat?
  split
  · rename_i h
    constructor
    · intro hid
      rw [← Option.some.inj hid]
      exact UInt64.toNat_ofNatLT
    · intro hn
      subst hn
      simp
  · rename_i h
    constructor
    · intro hid
      contradiction
    · intro hn
      subst hn
      exact absurd id.toNat_lt_size h

end MediaId

structure MediaRecord where
  id : MediaId
  /-- The file name, which stands in for a missing alternative text. -/
  name : Text
  /-- The path below the base URL of the library. -/
  path : Text
  altText? : Option Text := none
  caption? : Option Text := none
deriving DecidableEq, Repr

end Shortcode
