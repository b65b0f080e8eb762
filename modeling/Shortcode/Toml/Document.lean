import Shortcode.Toml.Quoted
import Shortcode.Toml.Scalar
import Shortcode.Toml.Table

/-! # TOML documents

A document is a sequence of lines: headers, keys with their values, comments and blank lines. It
is read into the entries of its root table, or refused as a whole. -/

namespace Shortcode.Toml

def dropSpaces (text : Text) : Text :=
  text.dropWhile Quoted.isSpace

/-- What follows the spaces, line ends and comments at the start of a text. The flag says that a
comment has begun. -/
def afterGap? : Bool → Text → Option Text
  | _, [] => some []
  | _, '\n' :: rest => afterGap? false rest
  | _, '\r' :: '\n' :: rest => afterGap? false rest
  | false, '#' :: rest => afterGap? true rest
  | false, c :: rest => if Quoted.isSpace c then afterGap? false rest else some (c :: rest)
  | true, c :: rest => if Quoted.isPlain c then afterGap? true rest else none

/-- What follows the end of a line, which may hold spaces and a comment. The flag says that a
comment has begun. -/
def afterLine? : Bool → Text → Option Text
  | _, [] => some []
  | _, '\n' :: rest => some rest
  | _, '\r' :: '\n' :: rest => some rest
  | false, '#' :: rest => afterLine? true rest
  | false, c :: rest => if Quoted.isSpace c then afterLine? false rest else none
  | true, c :: rest => if Quoted.isPlain c then afterLine? true rest else none

namespace Key

def isBare (c : Char) : Bool :=
  c.isAlphanum || c == '_' || c == '-'

def simple? : Reader Text := fun text =>
  match text.takeWhile isBare with
  | [] => Quoted.line? text
  | bare => some (bare, text.dropWhile isBare)

/-- The dotted key at the start of a text: the path of tables and the key in the last of them.
Spaces may stand around the dots and around the whole. At most `bound` keys are read. -/
def dotted? : Nat → Reader (List Text × Text)
  | 0, _ => none
  | bound + 1, text => do
    let (key, rest) ← simple? (dropSpaces text)
    match dropSpaces rest with
    | '.' :: rest =>
      let ((path, last), rest) ← dotted? bound rest
      return ((key :: path, last), rest)
    | rest => return (([], key), rest)

def maxParts : Nat := 80

def read? : Reader (List Text × Text) :=
  dotted? maxParts

end Key

namespace Value

def isScalarChar (c : Char) : Bool :=
  Text.isWordChar c || c == '+' || c == '-' || c == '.' || c == ':'

/-- The unquoted scalar at the start of a text. A space between a date and a time is part of it. -/
def scalar? : Reader Value := fun text => do
  let word := text.takeWhile isScalarChar
  let rest := text.dropWhile isScalarChar
  match Scalar.afterDate? word, rest with
  | some [], ' ' :: c :: rest' =>
    if Scalar.isDigit c then
      let v ← Scalar.ofText? (word ++ ' ' :: (c :: rest').takeWhile isScalarChar)
      return (v, (c :: rest').dropWhile isScalarChar)
    else return (.datetime, rest)
  | _, _ => return (← Scalar.ofText? word, rest)

/-- The rest of an array, item by item; after the last item a comma may stand. At most `bound`
items are read. -/
def items? (item? : Reader Value) : Nat → Reader (List Value)
  | 0, _ => none
  | bound + 1, text => do
    match ← afterGap? false text with
    | ']' :: rest => return ([], rest)
    | text =>
      let (v, rest) ← item? text
      match ← afterGap? false rest with
      | ']' :: rest => return ([v], rest)
      | ',' :: rest =>
        let (vs, rest) ← items? item? bound rest
        return (v :: vs, rest)
      | _ => none

/-- The rest of a table between braces, added to the entries read so far. Lines may end and
comments may stand around every key, equals sign, value and comma. At most `bound` keys are read. -/
def inline? (value? : Reader Value) : Nat → Entries → Reader Entries
  | 0, _, _ => none
  | bound + 1, entries, text => do
    match ← afterGap? false text with
    | '}' :: rest => return (entries, rest)
    | text =>
      let ((path, key), rest) ← Key.read? text
      let rest ← Text.after? "=" (← afterGap? false rest)
      let (v, rest) ← value? (← afterGap? false rest)
      let entries ← Entries.insert? path key v .header entries
      match ← afterGap? false rest with
      | '}' :: rest => return (entries, rest)
      | ',' :: rest => inline? value? bound entries rest
      | _ => none

/-- The value at the start of a text, whose arrays and tables are nested at most `depth` deep. -/
def ofDepth? : Nat → Reader Value
  | depth, text =>
    match text with
    | '"' :: _ => (Quoted.read? text).map fun (t, rest) => (.string t, rest)
    | '\'' :: _ => (Quoted.read? text).map fun (t, rest) => (.string t, rest)
    | '[' :: rest =>
      match depth with
      | 0 => none
      | depth + 1 =>
        (items? (ofDepth? depth) (rest.length + 1) rest).map fun (vs, rest) => (.array vs, rest)
    | '{' :: rest =>
      match depth with
      | 0 => none
      | depth + 1 =>
        (inline? (ofDepth? depth) (rest.length + 1) [] rest).map fun (entries, rest) =>
          (.table .inline entries, rest)
    | _ => scalar? text

def maxDepth : Nat := 80

def read? : Reader Value :=
  ofDepth? maxDepth

end Value

/-- The state of reading a document: the entries so far, and the path of the table that the last
header opened. -/
structure Reading where
  root : Entries := []
  current : List Text := []

namespace Reading

def header? (r : Reading) (text : Text) : Option (Reading × Text) := do
  let (item, text) := match text with
    | '[' :: text => (true, text)
    | text => (false, text)
  let ((path, key), rest) ← Key.read? text
  let rest ← Text.after? (if item then "]]" else "]") rest
  let root ← if item then Entries.openItem? path key r.root else Entries.openTable? path key r.root
  return ({ root, current := path ++ [key] }, rest)

def assignment? (r : Reading) (text : Text) : Option (Reading × Text) := do
  let ((path, key), rest) ← Key.read? text
  let rest ← Text.after? "=" rest
  let (v, rest) ← Value.read? (dropSpaces rest)
  let root ← Entries.within? false (Entries.insert? path key v) r.current .header r.root
  return ({ r with root }, rest)

/-- Reads the remaining lines. At most `bound` lines are read. -/
def lines? : Nat → Reading → Text → Option Reading
  | 0, _, _ => none
  | bound + 1, r, text => do
    match dropSpaces text with
    | [] => return r
    | '[' :: text =>
      let (r, rest) ← r.header? text
      lines? bound r (← afterLine? false rest)
    | c :: text =>
      if c = '#' ∨ c = '\n' ∨ c = '\r' then lines? bound r (← afterLine? false (c :: text))
      else
        let (r, rest) ← r.assignment? (c :: text)
        lines? bound r (← afterLine? false rest)

end Reading

/-- The entries of the root table of a document. A byte order mark at its start is skipped. -/
def read? (text : Text) : Option Entries :=
  let text := match text with
    | '\ufeff' :: text => text
    | text => text
  (Reading.lines? (text.length + 1) {} text).map Reading.root

end Shortcode.Toml
