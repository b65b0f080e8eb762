import Shortcode.Proofs.Attributes
import Shortcode.Proofs.Markup.Links

/-! # Trees of markup

Markup as a tree of elements, and what it shows: the toggles with their targets and labels, and the
panels with their IDs and contents. -/

namespace Shortcode.Markup

/-- An element, or a text between tags, which may be markup itself. -/
inductive Node where
  | text (markup : Text)
  | element (name : Text) (attributes : Attributes) (children : List Node)
deriving Repr

/-- A control that shows a panel. -/
structure Toggle where
  target : Text
  label : Text
  active : Bool
deriving DecidableEq, Repr

/-- An element that a toggle shows. -/
structure Panel where
  id : Text
  content : Text
  shown : Bool
deriving DecidableEq, Repr

namespace Node

mutual

/-- The markup of a node. -/
def write : Node → Text
  | text markup => markup
  | element name attributes children =>
    '<' :: (name ++ (attributes.pairs.flatMap (fun pair => ' ' :: Attributes.write pair) ++
      '>' :: (writeAll children ++ '<' :: '/' :: (name ++ ['>']))))

def writeAll : List Node → Text
  | [] => []
  | node :: nodes => node.write ++ writeAll nodes

end

mutual

/-- The elements of a node, each one in front of those inside it. -/
def elements : Node → List Node
  | text _ => []
  | element name attributes children => element name attributes children :: elementsOf children

def elementsOf : List Node → List Node
  | [] => []
  | node :: nodes => node.elements ++ elementsOf nodes

end

mutual

/-- The texts in a node without the tags. -/
def content : Node → Text
  | text markup => markup
  | element _ _ children => contentOf children

def contentOf : List Node → Text
  | [] => []
  | node :: nodes => node.content ++ contentOf nodes

end

def attributes : Node → Attributes
  | text _ => ⟨[]⟩
  | element _ attributes _ => attributes

/-- A word in the list of classes. -/
def hasClass (node : Node) (name : Text) : Bool :=
  Text.occursIn (' ' :: (name ++ [' '])) (' ' :: (node.attributes.getD "class" "" ++ [' ']))

/-- A control that has a target. That of a collapsible panel is active unless it is collapsed. -/
def toggle? (node : Node) : Option Toggle :=
  (node.attributes.get? "data-bs-target").map fun target =>
    { target
      label := node.content
      active := node.hasClass "active" ||
        node.hasClass "accordion-button" && ! node.hasClass "collapsed" }

/-- A panel is shown if its classes say so, and a pane must also be the active one. -/
def panel? (node : Node) : Option Panel :=
  if isPanel node.attributes then
    some
      { id := node.attributes.getD "id" ""
        content := node.content
        shown := node.hasClass "show" && (node.hasClass "collapse" || node.hasClass "active") }
  else none

/-- The toggles in a node, in order. -/
def toggles (node : Node) : List Toggle :=
  node.elements.filterMap toggle?

/-- The panels in a node, in order. -/
def panels (node : Node) : List Panel :=
  node.elements.filterMap panel?

/-! ### What is inside an element -/

theorem elementsOf_eq_flatMap (nodes : List Node) : elementsOf nodes = nodes.flatMap elements := by
  induction nodes with
  | nil => rfl
  | cons node nodes ih => rw [elementsOf, ih, List.flatMap_cons]

variable {name : Text} {a : Attributes} {children : List Node}

theorem filterMap_elements {β : Type} {part? : Node → Option β}
    (h : part? (element name a children) = none) :
    (element name a children).elements.filterMap part? =
      children.flatMap fun node => node.elements.filterMap part? := by
  rw [elements, List.filterMap_cons_none h, elementsOf_eq_flatMap, List.filterMap_flatMap]

theorem toggles_element (h : a.get? "data-bs-target" = none) :
    (element name a children).toggles = children.flatMap toggles := by
  apply filterMap_elements
  rw [toggle?, attributes, h]
  rfl

theorem panels_element (h : isPanel a = false) :
    (element name a children).panels = children.flatMap panels := by
  apply filterMap_elements
  rw [panel?, attributes, h]
  rfl

section Numbered

variable {α β : Type} {node : Nat → α → Node} {part : Node → List β}

theorem flatMap_mapIdx_eq_nil (h : ∀ i a, part (node i a) = []) (as : List α) :
    (as.mapIdx node).flatMap part = [] := by
  rw [List.flatMap_eq_nil_iff]
  intro x hx
  obtain ⟨i, hi, rfl⟩ := List.mem_mapIdx.mp hx
  exact h i as[i]

/-- Numbered nodes with one part each have numbered parts. -/
theorem flatMap_mapIdx {value : Nat → α → β} (h : ∀ i a, part (node i a) = [value i a])
    (as : List α) : (as.mapIdx node).flatMap part = as.mapIdx value := by
  induction as generalizing node value with
  | nil => rfl
  | cons a as ih =>
    have hrest := ih fun i => h (i + 1)
    rw [List.mapIdx_cons, List.mapIdx_cons, List.flatMap_cons, h, hrest]
    rfl

end Numbered

end Node

end Shortcode.Markup
