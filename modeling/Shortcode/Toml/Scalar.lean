import Shortcode.Toml.Value

/-! # Unquoted TOML scalars

Booleans, integers, floating-point numbers, and dates and times, each from the whole text of the
scalar. An underscore may stand between two digits of a number. -/

namespace Shortcode.Toml.Scalar

def isDigit (c : Char) : Bool :=
  '0' ≤ c && c ≤ '9'

/-- The digits of a number without the underscores between them. -/
def digits? (digit : Char → Bool) : Text → Option Text
  | [] => none
  | [c] => if digit c then some [c] else none
  | c :: '_' :: rest => if digit c then (digits? digit rest).map (c :: ·) else none
  | c :: rest => if digit c then (digits? digit rest).map (c :: ·) else none

def sign : Text → Bool × Text
  | '-' :: rest => (true, rest)
  | '+' :: rest => (false, rest)
  | text => (false, text)

/-- The digits of a decimal integer, which has no leading zeros. -/
def decimalDigits? (text : Text) : Option Text :=
  match digits? isDigit text with
  | some ('0' :: _ :: _) => none
  | digits? => digits?

def octalDigit? (c : Char) : Option Nat :=
  if '0' ≤ c ∧ c ≤ '7' then some (c.toNat - '0'.toNat) else none

def binaryDigit? (c : Char) : Option Nat :=
  if c = '0' then some 0 else if c = '1' then some 1 else none

def natural? (base : Nat) (digit? : Char → Option Nat) (text : Text) : Option Nat :=
  (digits? (digit? · |>.isSome) text).bind (Text.numeral? base digit?)

def integer? : Text → Option Int
  | '0' :: 'x' :: rest => (natural? 16 Text.hexDigit? rest).map Int.ofNat
  | '0' :: 'o' :: rest => (natural? 8 octalDigit? rest).map Int.ofNat
  | '0' :: 'b' :: rest => (natural? 2 binaryDigit? rest).map Int.ofNat
  | text =>
    let (negative, rest) := sign text
    ((decimalDigits? rest).bind (Text.numeral? 10 Text.digit?)).map fun n =>
      if negative then -(n : Int) else n

/-- Whether `digits` times ten to the power of `exponent` is rounded beyond the largest
floating-point number with 64 bits. -/
def overflows (digits : Text) (exponent : Int) : Bool :=
  let n := (Text.numeral? 10 Text.digit? digits).getD 0
  let limit := Nat.pow 2 1024 - Nat.pow 2 970
  if n = 0 then false
  else match exponent with
    | .ofNat e => if 400 < e then true else limit ≤ n * Nat.pow 10 e
    | .negSucc e => if digits.length < e then false else limit * Nat.pow 10 (e + 1) ≤ n

/-- A floating-point number: it has a fraction or an exponent, or is infinite, or is no number. -/
def float? (text : Text) : Option Value := do
  let (_, number) := sign text
  if number = "inf" ∨ number = "nan" then return .float false
  let isExponentMark (c : Char) : Bool := c == 'e' || c == 'E'
  let mantissa := number.takeWhile (! isExponentMark ·)
  let whole ← decimalDigits? (mantissa.takeWhile (· ≠ '.'))
  let fraction ← match mantissa.dropWhile (· ≠ '.') with
    | [] => some []
    | _ :: fraction => digits? isDigit fraction
  let exponent ← match number.dropWhile (! isExponentMark ·) with
    | [] => if fraction.isEmpty then none else some 0
    | _ :: exponent =>
      let (negative, digits) := sign exponent
      ((digits? isDigit digits).bind (Text.numeral? 10 Text.digit?)).map fun n =>
        if negative then -(n : Int) else n
  return .float (overflows (whole ++ fraction) (exponent - fraction.length))

def fixed? (count : Nat) (text : Text) : Option (Nat × Text) :=
  if (text.take count).length = count then
    (Text.numeral? 10 Text.digit? (text.take count)).map (·, text.drop count)
  else none

def daysInMonth (year month : Nat) : Nat :=
  if month = 2 then
    if year % 4 = 0 ∧ (year % 100 ≠ 0 ∨ year % 400 = 0) then 29 else 28
  else if month = 4 ∨ month = 6 ∨ month = 9 ∨ month = 11 then 30
  else 31

def afterDate? (text : Text) : Option Text := do
  let (year, rest) ← fixed? 4 text
  let (month, rest) ← fixed? 2 (← Text.after? "-" rest)
  let (day, rest) ← fixed? 2 (← Text.after? "-" rest)
  if 1 ≤ month ∧ month ≤ 12 ∧ 1 ≤ day ∧ day ≤ daysInMonth year month then some rest else none

/-- What follows a time of day at the start of a text. The seconds may be left out. -/
def afterTime? (text : Text) : Option Text := do
  let (hour, rest) ← fixed? 2 text
  let (minute, rest) ← fixed? 2 (← Text.after? ":" rest)
  guard (hour ≤ 23 ∧ minute ≤ 59)
  match rest with
  | ':' :: rest =>
    let (second, rest) ← fixed? 2 rest
    guard (second ≤ 60)
    match rest with
    | '.' :: c :: rest => if isDigit c then some (rest.dropWhile isDigit) else none
    | '.' :: [] => none
    | _ => some rest
  | _ => some rest

/-- Whether a text is the offset of a time zone, or empty. -/
def isOffset : Text → Bool
  | [] => true
  | ['Z'] => true
  | ['z'] => true
  | c :: rest =>
    (c == '+' || c == '-') &&
      match fixed? 2 rest with
      | some (hours, ':' :: rest) =>
        match fixed? 2 rest with
        | some (minutes, []) => hours ≤ 23 && minutes ≤ 59
        | _ => false
      | _ => false

def isDatetime (text : Text) : Bool :=
  match afterDate? text with
  | some [] => true
  | some (c :: rest) =>
    (c == 'T' || c == 't' || c == ' ') && ((afterTime? rest).map isOffset).getD false
  | none => afterTime? text == some []

def ofText? (text : Text) : Option Value :=
  if text = "true" then some (.boolean true)
  else if text = "false" then some (.boolean false)
  else match integer? text with
    | some n => some (.integer n)
    | none =>
      match float? text with
      | some v => some v
      | none => if isDatetime text then some .datetime else none

end Shortcode.Toml.Scalar
