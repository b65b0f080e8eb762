import Shortcode.Yaml.Document

/-! # Aliases

An alias stands for the last node of its document that carries its anchor. Following aliases is
counted: a document may follow at most a hundred of them for each of its events, where a scalar or
an alias is one event and a collection is one at each end. So a small text cannot stand for an
unbounded amount of data. -/

namespace Shortcode.Yaml

/-- A document: its node, and all its nodes in the order of the text. -/
structure Document where
  root : Node Nat
  nodes : List (Node Nat)

/-- A value that is found by following aliases, which are counted. -/
abbrev Following := StateT Nat Option

namespace Document

def ofRoot (root : Node Nat) : Document :=
  ⟨root, root.nodes⟩

def target? (d : Document) (anchor : Nat) : Option (Node Nat) :=
  (d.nodes.filter (·.properties.anchor? == some anchor)).getLast?

def follow (d : Document) : Node Nat → Following (Node Nat)
  | .aliasOf anchor => do
    modify (· + 1)
    d.target? anchor
  | node => pure node

def eventsOf : Node Nat → Nat
  | .scalar _ _ _ => 1
  | .aliasOf _ => 1
  | .sequence _ _ => 2
  | .mapping _ _ => 2

def events (d : Document) : Nat :=
  d.nodes.foldl (fun count node => count + eventsOf node) 0

/-- The value that is found in a document, unless too many aliases are followed. -/
def find? {α : Type} (d : Document) (x : Following α) : Option α :=
  match x.run 0 with
  | some (a, count) => if count ≤ d.events * 100 then some a else none
  | none => none

end Document

end Shortcode.Yaml
