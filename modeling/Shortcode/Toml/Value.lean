import Shortcode.Text.Basic

/-! # TOML values

The values of a TOML document. A table remembers how it came about, since that decides in which
ways it may still grow. -/

namespace Shortcode.Toml

/-- How a table came about. -/
inductive Origin where
  /-- It is written between braces, and is closed. -/
  | inline
  /-- It has a header of its own. -/
  | header
  /-- It lies on the way to the header of another table. -/
  | implied
  /-- It lies on the way to a dotted key. -/
  | dotted
deriving DecidableEq, Repr

inductive Value where
  | string (text : Text)
  | integer (n : Int)
  /-- A floating-point number; `overflows` says that it lies beyond the largest one. -/
  | float (overflows : Bool)
  | boolean (b : Bool)
  | datetime
  | array (items : List Value)
  | table (origin : Origin) (entries : List (Text × Value))
  /-- Tables with one header in double brackets, in the order in which they are written. -/
  | tables (items : List (List (Text × Value)))

abbrev Entries := List (Text × Value)

end Shortcode.Toml
