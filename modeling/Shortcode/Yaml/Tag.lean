import Shortcode.Yaml.Token

/-! # Names in YAML

Anchors and aliases have names. Tags are written in full between angle brackets, with a handle
between exclamation marks, or after a single exclamation mark. A percent sign and two hexadecimal
digits stand for an octet of a tag. -/

namespace Shortcode.Yaml

def endsName : List Glyph → Bool
  | [] => true
  | g :: rest => atGap (g :: rest) || "?:,]\x7d%@\x60".toList.contains g.char

def name? : GlyphReader Text := fun gs =>
  let name := takeChars isNameChar gs
  let rest := dropChars isNameChar gs
  if name.isEmpty || !endsName rest then none else some (name, rest)

namespace TagName

/-- Whether a character may stand in a tag. Between angle brackets more of them may. -/
def isTagChar (bracketed : Bool) (c : Char) : Bool :=
  isNameChar c || ";/?:@&=+$.!~*'()%".toList.contains c || (bracketed && ",[]".toList.contains c)

def octet? (a b : Glyph) : Option Nat :=
  Text.numeral? 16 Text.hexDigit? (textOf [a, b])

/-- An unfinished character: the number of octets that it lacks, and its bits so far. -/
structure Partial where
  lacking : Nat
  bits : Nat

def start? (octet : Nat) : Option (Partial ⊕ Char) :=
  if octet < 0x80 then (Text.charOfNat? octet).map .inr
  else if 0xC0 ≤ octet ∧ octet < 0xE0 then some (.inl ⟨1, octet - 0xC0⟩)
  else if 0xE0 ≤ octet ∧ octet < 0xF0 then some (.inl ⟨2, octet - 0xE0⟩)
  else if 0xF0 ≤ octet ∧ octet < 0xF8 then some (.inl ⟨3, octet - 0xF0⟩)
  else none

/-- The character with the given bits in more than one octet. One that fits into a single octet, or
that does not exist, is replaced. -/
def wide (bits : Nat) : Char :=
  if bits < 0x80 then '\ufffd' else (Text.charOfNat? bits).getD '\ufffd'

def Partial.continue? (p : Partial) (octet : Nat) : Option (Partial ⊕ Char) :=
  if 0x80 ≤ octet ∧ octet < 0xC0 then
    let bits := p.bits * 0x40 + (octet - 0x80)
    some (if p.lacking ≤ 1 then .inr (wide bits) else .inl ⟨p.lacking - 1, bits⟩)
  else none

def chars? (bracketed : Bool) : Option Partial → GlyphReader Text
  | none, [] => some ([], [])
  | some _, [] => none
  | p?, ⟨'%', _⟩ :: a :: b :: rest =>
    match (octet? a b).bind (p?.elim start? Partial.continue?) with
    | some (.inl p) => chars? bracketed (some p) rest
    | some (.inr c) => (chars? bracketed none rest).map fun (text, rest) => (c :: text, rest)
    | none => none
  | some _, _ :: _ => none
  | none, g :: rest =>
    if g.char = '%' then none
    else if isTagChar bracketed g.char then
      (chars? bracketed none rest).map fun (text, rest) => (g.char :: text, rest)
    else some ([], g :: rest)

def someChars? (bracketed : Bool) : GlyphReader Text := fun gs =>
  match chars? bracketed none gs with
  | some ([], _) => none
  | read? => read?

def written? : GlyphReader TagName
  | ⟨'<', _⟩ :: rest => do
    let (text, rest) ← someChars? true rest
    match rest with
    | ⟨'>', _⟩ :: rest => return (⟨[], text⟩, rest)
    | _ => none
  | gs =>
    let word := takeChars isNameChar gs
    match dropChars isNameChar gs with
    | ⟨'!', _⟩ :: rest =>
      (someChars? false rest).map fun (text, rest) => (⟨'!' :: word ++ ['!'], text⟩, rest)
    | rest => (chars? false none rest).map fun (text, rest) =>
      if (word ++ text).isEmpty then (⟨[], ['!']⟩, rest) else (⟨['!'], word ++ text⟩, rest)

/-- The tag at the start of a text, whose exclamation mark is gone. It is set off from what
follows, or between brackets followed by a comma. -/
def read? (inFlow : Bool) : GlyphReader TagName := fun gs => do
  let (tag, rest) ← written? gs
  let isEnd := match rest with
    | ⟨',', _⟩ :: _ => inFlow
    | _ => atGap rest
  if isEnd then some (tag, rest) else none

def resolve? (handles : List (Text × Text)) (t : TagName) : Option Text :=
  if t.handle.isEmpty then some t.rest
  else (handles.lookup t.handle).map (· ++ t.rest)

end TagName

def standardHandles : List (Text × Text) :=
  [("!", "!"), ("!!", "tag:yaml.org,2002:")]

namespace Directive

def number? : GlyphReader Nat := fun gs =>
  let isDigit (c : Char) : Bool := (Text.digit? c).isSome
  let digits := takeChars isDigit gs
  if 9 < digits.length then none
  else (Text.numeral? 10 Text.digit? digits).map (·, dropChars isDigit gs)

def version? : GlyphReader Token := fun gs => do
  let (major, rest) ← number? (dropChars isSpace gs)
  match rest with
  | ⟨'.', _⟩ :: rest =>
    let (minor, rest) ← number? rest
    return (.version major minor, ← afterLine? rest)
  | _ => none

def handle? : GlyphReader Text
  | ⟨'!', _⟩ :: rest =>
    let word := takeChars isNameChar rest
    match dropChars isNameChar rest with
    | ⟨'!', _⟩ :: rest => some ('!' :: word ++ ['!'], rest)
    | rest => if word.isEmpty then some (['!'], rest) else none
  | _ => none

def tagHandle? : GlyphReader Token := fun gs => do
  let (handle, rest) ← handle? (dropChars isSpace gs)
  if !atSpace rest then none else
  let (start, rest) ← TagName.someChars? true (dropChars isSpace rest)
  if !atGap rest then none else
  return (.tagHandle handle start, ← afterLine? rest)

def read? : GlyphReader Token := fun gs =>
  let rest := dropChars isNameChar gs
  if !atGap rest then none
  else if takeChars isNameChar gs = "YAML" then version? rest
  else if takeChars isNameChar gs = "TAG" then tagHandle? rest
  else none

end Directive

end Shortcode.Yaml
