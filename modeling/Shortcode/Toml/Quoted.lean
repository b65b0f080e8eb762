import Shortcode.Scan

/-! # Quoted text in TOML

Basic strings stand between double quotes and have escapes; literal strings stand between single
quotes and have none. Both have a form with three quotes that may span lines. -/

namespace Shortcode.Toml.Quoted

/-- A character that may stand in a comment or a string: a tab or any character but the other
ASCII controls. -/
def isPlain (c : Char) : Bool :=
  c == '\t' || (' ' ≤ c && c ≠ '\x7f')

def isSpace (c : Char) : Bool :=
  c == ' ' || c == '\t'

def escaped? : Char → Option Char
  | 'b' => some '\x08'
  | 't' => some '\t'
  | 'n' => some '\n'
  | 'f' => some '\x0c'
  | 'r' => some '\r'
  | 'e' => some '\x1b'
  | '"' => some '"'
  | '\\' => some '\\'
  | _ => none

def before (c? : Option Char) (read : Option (Text × Text)) : Option (Text × Text) := do
  let c ← c?
  let (text, rest) ← read
  return (c :: text, rest)

def basic? : Reader Text
  | [] => none
  | '"' :: rest => some ([], rest)
  | '\\' :: 'x' :: a :: b :: rest => before (Text.charOfHex? [a, b]) (basic? rest)
  | '\\' :: 'u' :: a :: b :: c :: d :: rest => before (Text.charOfHex? [a, b, c, d]) (basic? rest)
  | '\\' :: 'U' :: a :: b :: c :: d :: e :: f :: g :: h :: rest =>
    before (Text.charOfHex? [a, b, c, d, e, f, g, h]) (basic? rest)
  | '\\' :: c :: rest => before (escaped? c) (basic? rest)
  | c :: rest => if isPlain c then before (some c) (basic? rest) else none

def atLineEnd : Text → Bool
  | '\n' :: _ => true
  | '\r' :: '\n' :: _ => true
  | _ => false

/-- The rest of a basic string over lines. After a backslash at the end of a line, blanks and line
ends are skipped up to the next other character. -/
def basicLines? : Bool → Reader Text
  | _, [] => none
  | _, '"' :: '"' :: '"' :: '"' :: '"' :: rest => some (['"', '"'], rest)
  | _, '"' :: '"' :: '"' :: '"' :: rest => some (['"'], rest)
  | _, '"' :: '"' :: '"' :: rest => some ([], rest)
  | skipping, '\r' :: '\n' :: rest =>
    if skipping then basicLines? true rest
    else before (some '\r') (before (some '\n') (basicLines? false rest))
  | skipping, '\n' :: rest =>
    if skipping then basicLines? true rest else before (some '\n') (basicLines? false rest)
  | _, '\\' :: 'x' :: a :: b :: rest =>
    before (Text.charOfHex? [a, b]) (basicLines? false rest)
  | _, '\\' :: 'u' :: a :: b :: c :: d :: rest =>
    before (Text.charOfHex? [a, b, c, d]) (basicLines? false rest)
  | _, '\\' :: 'U' :: a :: b :: c :: d :: e :: f :: g :: h :: rest =>
    before (Text.charOfHex? [a, b, c, d, e, f, g, h]) (basicLines? false rest)
  | _, '\\' :: c :: rest =>
    if atLineEnd ((c :: rest).dropWhile isSpace) then basicLines? true (c :: rest)
    else before (escaped? c) (basicLines? false rest)
  | skipping, c :: rest =>
    if skipping && isSpace c then basicLines? true rest
    else if isPlain c then before (some c) (basicLines? false rest)
    else none

def literal? : Reader Text
  | [] => none
  | '\'' :: rest => some ([], rest)
  | c :: rest => if isPlain c then before (some c) (literal? rest) else none

def literalLines? : Reader Text
  | [] => none
  | '\'' :: '\'' :: '\'' :: '\'' :: '\'' :: rest => some (['\'', '\''], rest)
  | '\'' :: '\'' :: '\'' :: '\'' :: rest => some (['\''], rest)
  | '\'' :: '\'' :: '\'' :: rest => some ([], rest)
  | '\r' :: '\n' :: rest => before (some '\r') (before (some '\n') (literalLines? rest))
  | '\n' :: rest => before (some '\n') (literalLines? rest)
  | c :: rest => if isPlain c then before (some c) (literalLines? rest) else none

def dropLineEnd : Text → Text
  | '\n' :: rest => rest
  | '\r' :: '\n' :: rest => rest
  | text => text

def line? : Reader Text
  | '"' :: rest => basic? rest
  | '\'' :: rest => literal? rest
  | _ => none

def read? : Reader Text
  | '"' :: '"' :: '"' :: rest => basicLines? false (dropLineEnd rest)
  | '\'' :: '\'' :: '\'' :: rest => literalLines? (dropLineEnd rest)
  | text => line? text

end Shortcode.Toml.Quoted
