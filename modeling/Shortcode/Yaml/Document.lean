import Shortcode.Yaml.Node
import Shortcode.Yaml.Tokens

/-! # YAML documents

The node that the tokens of a text make. A text holds at most one document; if it holds none then
its node is empty. Directives before the document may declare handles for its tags. -/

namespace Shortcode.Yaml

abbrev TokenReader (α : Type) := List Token → Option (α × List Token)

inductive Position where
  | block
  /-- After the mark of a key or a value of a block mapping, where a sequence need not be indented
  deeper than the mapping. -/
  | blockEntry
  | flow
deriving DecidableEq, Repr

/-- The properties of a node. They are an anchor and a tag in any order. -/
def properties? (handles : List (Text × Text)) : TokenReader (Properties Text)
  | .anchor name :: .tag tag :: rest =>
    (tag.resolve? handles).map fun tag => (⟨some name, some tag⟩, rest)
  | .anchor name :: rest => some (⟨some name, none⟩, rest)
  | .tag tag :: .anchor name :: rest =>
    (tag.resolve? handles).map fun tag => (⟨some name, some tag⟩, rest)
  | .tag tag :: rest => (tag.resolve? handles).map fun tag => (⟨none, some tag⟩, rest)
  | rest => some ({}, rest)

/-- Whether a node is left out before a token. -/
abbrev Stops := List Token → Bool

def endsItem : Stops
  | .blockEntry :: _ => true
  | .blockEnd :: _ => true
  | _ => false

def endsEntry : Stops
  | .key :: _ => true
  | .value :: _ => true
  | .blockEnd :: _ => true
  | _ => false

def endsFlow (close : Token) : Stops
  | t :: _ => t == .flowEntry || t == close
  | [] => false

abbrev NodeReader := Position → TokenReader (Node Text)

namespace NodeReader

variable (node? : NodeReader)

def orEmpty? (position : Position) (stops : Stops) : TokenReader (Node Text) := fun ts =>
  if stops ts then some (.empty, ts) else node? position ts

def blockItems? : Nat → TokenReader (List (Node Text))
  | bound + 1, .blockEntry :: rest => do
    let (item, rest) ← orEmpty? node? .block endsItem rest
    let (items, rest) ← blockItems? bound rest
    return (item :: items, rest)
  | _, .blockEnd :: rest => some ([], rest)
  | _, _ => none

/-- The rest of a sequence that is not indented deeper than the mapping around it. -/
def levelItems? : Nat → TokenReader (List (Node Text))
  | bound + 1, .blockEntry :: rest => do
    let (item, rest) ← orEmpty? node? .block (fun ts => endsItem ts || endsEntry ts) rest
    let (items, rest) ← levelItems? bound rest
    return (item :: items, rest)
  | 0, .blockEntry :: _ => none
  | _, rest => some ([], rest)

def blockValue? : TokenReader (Node Text)
  | .value :: rest => orEmpty? node? .blockEntry endsEntry rest
  | rest => some (.empty, rest)

def blockEntries? : Nat → TokenReader (List (Node Text × Node Text))
  | bound + 1, .key :: rest => do
    let (key, rest) ← orEmpty? node? .blockEntry endsEntry rest
    let (value, rest) ← blockValue? node? rest
    let (entries, rest) ← blockEntries? bound rest
    return ((key, value) :: entries, rest)
  | _, .blockEnd :: rest => some ([], rest)
  | _, _ => none

def flowValue? (close : Token) : TokenReader (Node Text)
  | .value :: rest => orEmpty? node? .flow (endsFlow close) rest
  | rest => some (.empty, rest)

/-- The single entry of a mapping that is an item of a sequence between brackets. If its key is left
out then so is the mark that follows. -/
def singlePair? : TokenReader (Node Text × Node Text) := fun ts => do
  let (key, rest) ← match ts with
    | .value :: rest => some (.empty, rest)
    | .flowEntry :: rest => some (.empty, rest)
    | .flowSequenceEnd :: rest => some (.empty, rest)
    | ts => node? .flow ts
  let (value, rest) ← flowValue? node? .flowSequenceEnd rest
  return ((key, value), rest)

def flowItem? : TokenReader (Node Text)
  | .key :: rest => (singlePair? node? rest).map fun (entry, rest) => (.mapping {} [entry], rest)
  | ts => node? .flow ts

def flowItems? : Nat → Bool → TokenReader (List (Node Text))
  | _, _, .flowSequenceEnd :: rest => some ([], rest)
  | _, false, .flowEntry :: .flowSequenceEnd :: rest => some ([], rest)
  | bound + 1, false, .flowEntry :: rest => do
    let (item, rest) ← flowItem? node? rest
    let (items, rest) ← flowItems? bound false rest
    return (item :: items, rest)
  | bound + 1, true, rest => do
    let (item, rest) ← flowItem? node? rest
    let (items, rest) ← flowItems? bound false rest
    return (item :: items, rest)
  | _, _, _ => none

def flowPair? : TokenReader (Node Text × Node Text)
  | .key :: rest => do
    let (key, rest) ← match rest with
      | .value :: rest => some (.empty, .value :: rest)
      | rest => orEmpty? node? .flow (endsFlow .flowMappingEnd) rest
    let (value, rest) ← flowValue? node? .flowMappingEnd rest
    return ((key, value), rest)
  | ts => (node? .flow ts).map fun (key, rest) => ((key, .empty), rest)

def flowEntries? : Nat → Bool → TokenReader (List (Node Text × Node Text))
  | _, _, .flowMappingEnd :: rest => some ([], rest)
  | _, false, .flowEntry :: .flowMappingEnd :: rest => some ([], rest)
  | bound + 1, false, .flowEntry :: rest => do
    let (entry, rest) ← flowPair? node? rest
    let (entries, rest) ← flowEntries? bound false rest
    return (entry :: entries, rest)
  | bound + 1, true, rest => do
    let (entry, rest) ← flowPair? node? rest
    let (entries, rest) ← flowEntries? bound false rest
    return (entry :: entries, rest)
  | _, _, _ => none

end NodeReader

/-- The properties of a scalar, where the tag with a single exclamation mark counts as none. -/
def scalarProperties (p : Properties Text) : Properties Text :=
  if p.tag? = some ['!'] then { p with tag? := none } else p

/-- The content of a node behind its properties. The nodes inside are read by `node?`. -/
def content? (node? : NodeReader) (position : Position) (p : Properties Text) :
    TokenReader (Node Text) := fun ts =>
  let collection {β : Type} (make : List β → Node Text) (read? : Nat → TokenReader (List β))
      (rest : List Token) : Option (Node Text × List Token) :=
    (read? (rest.length + 1) rest).map fun (items, rest) => (make items, rest)
  match ts with
  | .blockEntry :: rest =>
    if position = .blockEntry then
      collection (.sequence p) node?.levelItems? (.blockEntry :: rest)
    else if p.anchor?.isSome ∨ p.tag?.isSome then some (.empty p, .blockEntry :: rest)
    else none
  | .scalar style text :: rest => some (.scalar (scalarProperties p) style text, rest)
  | .flowSequenceStart :: rest =>
    collection (.sequence p) (node?.flowItems? · true) rest
  | .flowMappingStart :: rest =>
    collection (.mapping p) (node?.flowEntries? · true) rest
  | .blockSequenceStart :: rest =>
    if position = .flow then none else collection (.sequence p) node?.blockItems? rest
  | .blockMappingStart :: rest =>
    if position = .flow then none else collection (.mapping p) node?.blockEntries? rest
  | rest => if p.anchor?.isSome ∨ p.tag?.isSome then some (.empty p, rest) else none

/-- The node at the start of tokens, whose nodes are nested at most `depth` deep. -/
def node? (handles : List (Text × Text)) : Nat → NodeReader
  | 0, _, _ => none
  | _ + 1, _, .aliasOf name :: rest => some (.aliasOf name, rest)
  | depth + 1, position, ts => do
    let (p, rest) ← properties? handles ts
    content? (node? handles depth) position p rest

/-- The handles that the directives at the start declare, given those declared so far. The flag says
that the version has been given. -/
def handles? : Bool → List (Text × Text) → TokenReader (List (Text × Text))
  | versioned, handles, .version major minor :: rest =>
    if versioned ∨ major ≠ 1 ∨ (minor ≠ 1 ∧ minor ≠ 2) then none else handles? true handles rest
  | versioned, handles, .tagHandle handle start :: rest =>
    if (handles.lookup handle).isSome then none
    else handles? versioned (handles ++ [(handle, start)]) rest
  | _, handles, rest => some (handles, rest)

def startsExplicitly : Stops
  | .version _ _ :: _ => true
  | .tagHandle _ _ :: _ => true
  | .documentStart :: _ => true
  | _ => false

def endsDocument : Stops
  | [] => true
  | .documentEnd :: _ => true
  | ts => startsExplicitly ts

def document? : TokenReader (Node Text)
  | [] => some (.empty, [])
  | ts =>
    if startsExplicitly ts then do
      let (handles, rest) ← handles? false [] ts
      match rest with
      | .documentStart :: rest =>
        (node? (handles ++ standardHandles) rest.length).orEmpty? .block endsDocument rest
      | _ => none
    else node? standardHandles ts.length .block ts

/-- The node of a text that holds at most one document. -/
def read? (text : Text) : Option (Node Nat) := do
  let (node, rest) ← document? (← tokens? text)
  if rest.all (· == .documentEnd) then (node.number? []).map (·.1) else none

end Shortcode.Yaml
