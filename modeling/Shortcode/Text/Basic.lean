/-! # Text

Texts are lists of characters, so that the readers of this library recurse on them and their
lemmas are lemmas about lists. A string literal is accepted wherever a text is expected; strings
themselves only occur where a program meets its surroundings. -/

namespace Shortcode

abbrev Text := List Char

instance : Coe String Text where
  coe := String.toList

namespace Text

/-- The decimal digits of a number, without leading zeros. -/
def decimal (n : Nat) : Text :=
  Nat.toDigits 10 n

def utf8Length : Text → Nat
  | [] => 0
  | c :: rest => c.utf8Size + utf8Length rest

/-- What remains of `text` after `start`, or `none` if `text` does not begin so. -/
def after? (start text : Text) : Option Text :=
  start.isPrefixOf? text

def occursIn (part : Text) : Text → Bool
  | [] => part.isEmpty
  | c :: rest => part.isPrefixOf (c :: rest) || occursIn part rest

def digit? (c : Char) : Option Nat :=
  if '0' ≤ c ∧ c ≤ '9' then some (c.toNat - '0'.toNat) else none

def hexDigit? (c : Char) : Option Nat :=
  if '0' ≤ c ∧ c ≤ '9' then some (c.toNat - '0'.toNat)
  else if 'a' ≤ c ∧ c ≤ 'f' then some (c.toNat - 'a'.toNat + 10)
  else if 'A' ≤ c ∧ c ≤ 'F' then some (c.toNat - 'A'.toNat + 10)
  else none

/-- The value of a numeral whose digits `digit?` reads, or `none` if it is empty or another
character occurs in it. -/
def numeral? (base : Nat) (digit? : Char → Option Nat) : Text → Option Nat
  | [] => none
  | digits => digits.foldl (fun n? c => n?.bind fun n => (digit? c).map (base * n + ·)) (some 0)

/-- The character with a code point, unless it is a surrogate or beyond the last plane. -/
def charOfNat? (n : Nat) : Option Char :=
  if h : n.isValidChar then some (Char.ofNatAux n h) else none

def charOfHex? (digits : Text) : Option Char :=
  (numeral? 16 hexDigit? digits).bind charOfNat?

def toLower (text : Text) : Text :=
  text.map Char.toLower

def isWordChar (c : Char) : Bool :=
  c.isAlphanum || c == '_'

end Text

end Shortcode
