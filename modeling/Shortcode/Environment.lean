import Shortcode.Scan
import Shortcode.Text.Alphanumeric

/-! # Environment references

A setting may refer to environment variables. In a text with at least one brace reference three
more forms count: a bare name after a dollar sign, and two dollar signs, which stand for one.
Inserted values are not searched for further references. -/

namespace Shortcode

abbrev Environment := Text → Option Text

namespace Environment

inductive Reference where
  /-- A name in braces, with the text that stands for it where it is not set. -/
  | braced (name : Text) (fallback? : Option Text)
  /-- A name right after the dollar sign. -/
  | bare (name : Text)
  /-- Two dollar signs. -/
  | dollar
deriving DecidableEq, Repr

def isNameChar (c : Char) : Bool :=
  Text.isAlphanumeric c || c == '_'

/-- The parts of a text around the first place where `:-` stands. -/
def splitFallback? : Text → Option (Text × Text)
  | [] => none
  | ':' :: '-' :: rest => some ([], rest)
  | c :: rest => (splitFallback? rest).map fun (name, fallback) => (c :: name, fallback)

/-- The reference that the text between braces makes. Without a name before it, `:-` is part of
the name. -/
def Reference.ofBraces (inner : Text) : Reference :=
  match splitFallback? inner with
  | some (c :: name, fallback) => braced (c :: name) (some fallback)
  | _ => braced inner none

/-- The reference at the start of a text. An opening brace without a closing one makes none. -/
def reference? : Reader Reference
  | '$' :: '{' :: rest =>
    match rest.dropWhile (· ≠ '}') with
    | [] => none
    | _ :: rest' => some (.ofBraces (rest.takeWhile (· ≠ '}')), rest')
  | '$' :: '$' :: rest => some (.dollar, rest)
  | '$' :: rest =>
    match rest.takeWhile isNameChar with
    | [] => none
    | name => some (.bare name, rest.dropWhile isNameChar)
  | _ => none

structure Unset where
  name : Text
deriving DecidableEq, Repr

def Unset.message (e : Unset) : Text :=
  "$\x7b" ++ e.name ++ "\x7d not set"

def resolve (env : Environment) : Reference → Except Unset Text
  | .braced name fallback? =>
    match env name, fallback? with
    | some value, _ => .ok value
    | none, some fallback => .ok fallback
    | none, none => .error ⟨name⟩
  | .bare name =>
    match env name with
    | some value => .ok value
    | none => .error ⟨name⟩
  | .dollar => .ok ['$']

def resolveAll (env : Environment) : List (Segment Reference) → Except Unset Text
  | [] => .ok []
  | .gap c :: rest => do return c :: (← resolveAll env rest)
  | .hit r :: rest => do
    let value ← env.resolve r
    return value ++ (← resolveAll env rest)

def Reference.name? : Reference → Option Text
  | braced name _ => some name
  | bare name => some name
  | dollar => none

def names (text : Text) : List Text :=
  (Scan.hits reference? text).filterMap Reference.name?

/-- The text with its references resolved. A text without a brace reference stays as it is. -/
def expand (env : Environment) (text : Text) : Except Unset Text :=
  if Text.occursIn "$\x7b" text then resolveAll env (Scan.segments reference? text) else .ok text

end Environment

end Shortcode
