import Shortcode.Scan

/-! # JSON

Values and their reader. A string is kept with a mark for escapes that denote no character, since
a string that is ignored may hold them. -/

namespace Shortcode.Json

inductive Value where
  | null
  | boolean (b : Bool)
  /-- A number that is written as digits alone. -/
  | natural (n : Nat)
  | number
  /-- A string, or `none` if one of its escapes is half of a surrogate pair. -/
  | string (text? : Option Text)
  | array (items : List Value)
  | object (members : List (Option Text × Value))

/-- What a string holds: a character, or an escape in the range of surrogates. -/
inductive Symbol where
  | char (c : Char)
  | surrogate (n : Nat)
deriving DecidableEq, Repr

/-- The text of the symbols of a string. Two surrogates make a character if they are the upper and
the lower half of a pair. -/
def Symbol.decode : List Symbol → Option Text
  | [] => some []
  | .char c :: rest => (decode rest).map (c :: ·)
  | .surrogate high :: .surrogate low :: rest =>
    if high < 0xDC00 ∧ 0xDC00 ≤ low then do
      let c ← Text.charOfNat? (0x10000 + (high - 0xD800) * 0x400 + (low - 0xDC00))
      return c :: (← decode rest)
    else none
  | .surrogate _ :: _ => none

def Symbol.ofNat? (n : Nat) : Option Symbol :=
  if 0xD800 ≤ n ∧ n ≤ 0xDFFF then some (.surrogate n) else (Text.charOfNat? n).map .char

def escaped? : Char → Option Char
  | '"' => some '"'
  | '\\' => some '\\'
  | '/' => some '/'
  | 'b' => some '\x08'
  | 'f' => some '\x0c'
  | 'n' => some '\n'
  | 'r' => some '\r'
  | 't' => some '\t'
  | _ => none

def before (s? : Option Symbol) (read : Option (List Symbol × Text)) :
    Option (List Symbol × Text) := do
  let s ← s?
  let (symbols, rest) ← read
  return (s :: symbols, rest)

def symbols? : Reader (List Symbol)
  | [] => none
  | '"' :: rest => some ([], rest)
  | '\\' :: 'u' :: a :: b :: c :: d :: rest =>
    before ((Text.numeral? 16 Text.hexDigit? [a, b, c, d]).bind Symbol.ofNat?) (symbols? rest)
  | '\\' :: c :: rest => before ((escaped? c).map .char) (symbols? rest)
  | c :: rest => if ' ' ≤ c then before (some (.char c)) (symbols? rest) else none

def string? : Reader (Option Text) := fun text =>
  (symbols? text).map fun (symbols, rest) => (Symbol.decode symbols, rest)

def dropBlanks (text : Text) : Text :=
  text.dropWhile fun c => c == ' ' || c == '\n' || c == '\r' || c == '\t'

def isDigit (c : Char) : Bool :=
  '0' ≤ c && c ≤ '9'

def afterDigits? : Text → Option Text
  | c :: rest => if isDigit c then some (rest.dropWhile isDigit) else none
  | [] => none

def afterFraction? : Text → Option Text
  | '.' :: rest => afterDigits? rest
  | text => some text

def afterExponent? : Text → Option Text
  | c :: rest =>
    if c = 'e' ∨ c = 'E' then
      match rest with
      | '+' :: rest => afterDigits? rest
      | '-' :: rest => afterDigits? rest
      | rest => afterDigits? rest
    else some (c :: rest)
  | [] => some []

/-- What follows the whole part of a number, which has no leading zeros. -/
def afterWhole? : Text → Option Text
  | '0' :: c :: rest => if isDigit c then none else some (c :: rest)
  | text => afterDigits? text

def atFraction : Text → Bool
  | c :: _ => c == '.' || c == 'e' || c == 'E'
  | [] => false

def number? : Reader Value := fun text => do
  match text with
  | '-' :: rest => return (.number, ← afterExponent? (← afterFraction? (← afterWhole? rest)))
  | _ =>
    let rest ← afterWhole? text
    if atFraction rest then return (.number, ← afterExponent? (← afterFraction? rest))
    else return (.natural (← Text.numeral? 10 Text.digit? (text.takeWhile isDigit)), rest)

/-- The rest of an array that is not empty. At most `bound` items are read. -/
def items? (item? : Reader Value) : Nat → Reader (List Value)
  | 0, _ => none
  | bound + 1, text => do
    let (v, rest) ← item? (dropBlanks text)
    match dropBlanks rest with
    | ']' :: rest => return ([v], rest)
    | ',' :: rest =>
      let (vs, rest) ← items? item? bound rest
      return (v :: vs, rest)
    | _ => none

def members? (value? : Reader Value) : Nat → Reader (List (Option Text × Value))
  | 0, _ => none
  | bound + 1, text => do
    match dropBlanks text with
    | '"' :: rest =>
      let (key, rest) ← string? rest
      let rest ← Text.after? ":" (dropBlanks rest)
      let (v, rest) ← value? (dropBlanks rest)
      match dropBlanks rest with
      | '}' :: rest => return ([(key, v)], rest)
      | ',' :: rest =>
        let (ms, rest) ← members? value? bound rest
        return ((key, v) :: ms, rest)
      | _ => none
    | _ => none

/-- The value at the start of a text that has at most `bound` characters. -/
def value? : Nat → Reader Value
  | bound, text =>
    match text with
    | '"' :: rest => (string? rest).map fun (t, rest) => (.string t, rest)
    | '[' :: rest =>
      match bound with
      | 0 => none
      | bound + 1 =>
        match dropBlanks rest with
        | ']' :: rest => some (.array [], rest)
        | rest => (items? (value? bound) bound rest).map fun (vs, rest) => (.array vs, rest)
    | '{' :: rest =>
      match bound with
      | 0 => none
      | bound + 1 =>
        match dropBlanks rest with
        | '}' :: rest => some (.object [], rest)
        | rest => (members? (value? bound) bound rest).map fun (ms, rest) => (.object ms, rest)
    | 'n' :: 'u' :: 'l' :: 'l' :: rest => some (.null, rest)
    | 't' :: 'r' :: 'u' :: 'e' :: rest => some (.boolean true, rest)
    | 'f' :: 'a' :: 'l' :: 's' :: 'e' :: rest => some (.boolean false, rest)
    | text => number? text

def read? (text : Text) : Option Value :=
  match value? text.length (dropBlanks text) with
  | some (v, rest) => if (dropBlanks rest).isEmpty then some v else none
  | none => none

end Shortcode.Json
