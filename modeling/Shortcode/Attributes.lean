import Shortcode.Scan

/-! # Attributes

The `name="value"` pairs in the raw text of a tag. A pair is a run of word characters, an equals
sign and a value between double quotes; whatever stands between pairs is passed over, so
single-quoted and bare values count for nothing. -/

namespace Shortcode

/-- The attributes of a tag: its pairs in the order in which they are written. A name may be
written more than once, and then its last value counts. -/
structure Attributes where
  pairs : List (Text × Text)
deriving DecidableEq, Repr

namespace Attributes

def pair? : Reader (Text × Text) := fun text =>
  match text.dropWhile Text.isWordChar with
  | '=' :: '"' :: rest =>
    match text.takeWhile Text.isWordChar, rest.dropWhile (· ≠ '"') with
    | c :: name, '"' :: rest' => some ((c :: name, rest.takeWhile (· ≠ '"')), rest')
    | _, _ => none
  | _ => none

def parse (raw : Text) : Attributes :=
  ⟨Scan.hits pair? raw⟩

/-- The value of an attribute: the one written last. -/
def get? (a : Attributes) (name : Text) : Option Text :=
  a.pairs.reverse.lookup name

def getD (a : Attributes) (name fallback : Text) : Text :=
  (a.get? name).getD fallback

def names (a : Attributes) : List Text :=
  (a.pairs.map Prod.fst).eraseDups

def size (a : Attributes) : Nat :=
  a.names.length

def isEmpty (a : Attributes) : Bool :=
  a.pairs.isEmpty

end Attributes

end Shortcode
