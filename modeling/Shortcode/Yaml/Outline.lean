import Shortcode.Yaml.Token

/-! # Outlines

While a text is read, its outline says which blocks and brackets are open, and where a key may have
started that only the colon behind it will show to be one. Such a key ends on its line and takes at
most 1024 bytes. A key that starts a line of a block mapping is required: without its colon the text
is malformed. -/

namespace Shortcode.Yaml

structure KeyStart where
  required : Bool
  /-- The number of tokens before it. -/
  place : Nat
  mark : Mark
deriving DecidableEq, Repr

structure Outline where
  /-- The columns of the open blocks, from the innermost to the outermost. -/
  columns : List Nat := []
  /-- The key that may have started inside the innermost brackets. -/
  key? : Option KeyStart := none
  /-- The keys that may have started outside of the open brackets, from the innermost ones. -/
  outerKeys : List (Option KeyStart) := []
  keyAllowed : Bool := true
  count : Nat := 0
  /-- The tokens, from the last one to the first one. -/
  reversed : List Token := []
deriving DecidableEq, Repr

namespace Outline

def inFlow (o : Outline) : Bool :=
  !o.outerKeys.isEmpty

def add (o : Outline) (t : Token) : Outline :=
  { o with count := o.count + 1, reversed := t :: o.reversed }

def insert (o : Outline) (place : Nat) (t : Token) : Outline :=
  let later := o.count - place
  { o with
    count := o.count + 1
    reversed := o.reversed.take later ++ t :: o.reversed.drop later }

def allowKey (o : Outline) (allowed : Bool) : Outline :=
  { o with keyAllowed := allowed }

/-- The outline without the blocks that are indented deeper than a column, or without any block. -/
def closeBlocks (o : Outline) (column? : Option Nat) : Outline :=
  if o.inFlow then o
  else
    let closed := (o.columns.takeWhile fun c => column?.all (· < c)).length
    { o with
      columns := o.columns.drop closed
      count := o.count + closed
      reversed := List.replicate closed .blockEnd ++ o.reversed }

/-- The outline with a block that starts at a column, if this is deeper than the open blocks. -/
def openBlock (o : Outline) (column place : Nat) (t : Token) : Outline :=
  if o.inFlow || o.columns.head?.any (column ≤ ·) then o
  else { o.insert place t with columns := column :: o.columns }

/-- Whether what may be a key cannot be one any more at a position. -/
def KeyStart.isStale (k : KeyStart) (m : Mark) : Bool :=
  k.mark.line < m.line || k.mark.offset + 1024 < m.offset

/-- What is left of what may be a key. It fails for a required one. -/
def forget? : Option KeyStart → Option (Option KeyStart)
  | some k => if k.required then none else some none
  | none => some none

def forgetStale? (m : Mark) : Option KeyStart → Option (Option KeyStart)
  | some k => if KeyStart.isStale k m then forget? (some k) else some (some k)
  | none => some none

def dropStale? (o : Outline) (m : Mark) : Option Outline := do
  return { o with
    key? := ← forgetStale? m o.key?
    outerKeys := ← o.outerKeys.mapM (forgetStale? m) }

def dropKey? (o : Outline) : Option Outline :=
  (forget? o.key?).map fun key? => { o with key? }

def startKey? (o : Outline) (m : Mark) : Option Outline :=
  if o.keyAllowed then
    (forget? o.key?).map fun _ =>
      { o with key? := some ⟨!o.inFlow && o.columns.head? == some m.column, o.count, m⟩ }
  else some o

def openFlow? (o : Outline) (m : Mark) (t : Token) : Option Outline := do
  let o ← o.startKey? m
  return { o with key? := none, outerKeys := o.key? :: o.outerKeys, keyAllowed := true }.add t

def closeFlow? (o : Outline) (t : Token) : Option Outline := do
  let o ← o.dropKey?
  let o := match o.outerKeys with
    | key? :: outerKeys => { o with key?, outerKeys }
    | [] => o
  return (o.allowKey false).add t

def comma? (o : Outline) : Option Outline := do
  return ((← o.dropKey?).allowKey true).add .flowEntry

/-- The outline with a block that an entry or a key starts at its own position. Outside of brackets
a key has to be allowed there. -/
def startLine? (o : Outline) (m : Mark) (t : Token) : Option Outline :=
  if o.inFlow then some o
  else if o.keyAllowed then some (o.openBlock m.column o.count t)
  else none

def hyphen? (o : Outline) (m : Mark) : Option Outline := do
  let o ← (← o.startLine? m .blockSequenceStart).dropKey?
  return (o.allowKey true).add .blockEntry

def questionMark? (o : Outline) (m : Mark) : Option Outline := do
  let o ← (← o.startLine? m .blockMappingStart).dropKey?
  return (o.allowKey !o.inFlow).add .key

/-- The outline behind a colon. If something before it may be a key then it is one. -/
def colon? (o : Outline) (m : Mark) : Option Outline :=
  match o.key? with
  | some k =>
    let o := (o.insert k.place .key).openBlock k.mark.column k.place .blockMappingStart
    some ({ o with key? := none, keyAllowed := false }.add .value)
  | none => do
    let o ← o.startLine? m .blockMappingStart
    return (o.allowKey !o.inFlow).add .value

def topLevel? (o : Outline) (t : Token) : Option Outline := do
  let o ← (o.closeBlocks none).dropKey?
  return (o.allowKey false).add t

def word? (o : Outline) (m : Mark) (t : Token) : Option Outline := do
  return ((← o.startKey? m).allowKey false).add t

def blockScalar? (o : Outline) (t : Token) : Option Outline := do
  return ((← o.dropKey?).allowKey true).add t

def finish? (o : Outline) : Option (List Token) :=
  ((o.closeBlocks none).dropKey?).map (·.reversed.reverse)

end Outline

end Shortcode.Yaml
