import Shortcode.Yaml.Token

/-! # YAML nodes

A document is a tree of nodes. A node may carry an anchor, and an alias stands for the node that
carries its anchor. In a text anchors are names. A name may be used again, so they are numbered
before they are followed. -/

namespace Shortcode.Yaml

structure Properties (α : Type) where
  anchor? : Option α := none
  tag? : Option Text := none

/-- A node whose anchors are of type `α`. -/
inductive Node (α : Type) where
  | scalar (properties : Properties α) (style : Style) (text : Text)
  | sequence (properties : Properties α) (items : List (Node α))
  | mapping (properties : Properties α) (entries : List (Node α × Node α))
  | aliasOf (anchor : α)

/-- The numbers of the names that have been used, each name once. -/
abbrev Names := List (Text × Nat)

namespace Names

/-- The names with the next number for a name, which replaces the number that it had. The next
number is the number of names. -/
def assign (names : Names) (name : Text) : Names :=
  if (names.lookup name).isSome then
    names.map fun (n, k) => if n = name then (n, names.length) else (n, k)
  else names ++ [(name, names.length)]

def number (names : Names) (p : Properties Text) : Properties Nat × Names :=
  (⟨p.anchor?.map fun _ => names.length, p.tag?⟩, p.anchor?.elim names names.assign)

end Names

namespace Node

/-- The empty node, which is written by leaving a node out. -/
def empty {α : Type} (properties : Properties α := {}) : Node α :=
  scalar properties .plain []

def properties {α : Type} : Node α → Properties α
  | scalar p _ _ => p
  | sequence p _ => p
  | mapping p _ => p
  | aliasOf _ => {}

mutual

/-- The node with its anchors numbered in the order of the text, unless an alias comes before its
anchor. -/
def number? (names : Names) : Node Text → Option (Node Nat × Names)
  | scalar p style text =>
    let (p, names) := names.number p
    some (scalar p style text, names)
  | sequence p items =>
    let (p, names) := names.number p
    (numberItems? names items).map fun (items, names) => (sequence p items, names)
  | mapping p entries =>
    let (p, names) := names.number p
    (numberEntries? names entries).map fun (entries, names) => (mapping p entries, names)
  | aliasOf name => (names.lookup name).map fun k => (aliasOf k, names)

def numberItems? (names : Names) : List (Node Text) → Option (List (Node Nat) × Names)
  | [] => some ([], names)
  | node :: rest => do
    let (node, names) ← number? names node
    let (rest, names) ← numberItems? names rest
    return (node :: rest, names)

def numberEntries? (names : Names) :
    List (Node Text × Node Text) → Option (List (Node Nat × Node Nat) × Names)
  | [] => some ([], names)
  | (key, value) :: rest => do
    let (key, names) ← number? names key
    let (value, names) ← number? names value
    let (rest, names) ← numberEntries? names rest
    return ((key, value) :: rest, names)

end

mutual

def nodes {α : Type} : Node α → List (Node α)
  | scalar p style text => [scalar p style text]
  | sequence p items => sequence p items :: itemNodes items
  | mapping p entries => mapping p entries :: entryNodes entries
  | aliasOf anchor => [aliasOf anchor]

def itemNodes {α : Type} : List (Node α) → List (Node α)
  | [] => []
  | node :: rest => nodes node ++ itemNodes rest

def entryNodes {α : Type} : List (Node α × Node α) → List (Node α)
  | [] => []
  | (key, value) :: rest => nodes key ++ nodes value ++ entryNodes rest

end

end Node

end Shortcode.Yaml
