import Shortcode.Proofs.Markup.Tree
import Shortcode.Proofs.Expansion.Links

/-! # Panels of tab groups and accordions

The trees of markup that tab groups and accordions write, and the toggles and panels in them: one of
each for every child, in order and with the same number. -/

namespace Shortcode

namespace Expansion

open Markup

variable (escape : Text → Text) (id : Text)

/-! ### The trees -/

def tabNode (i : Nat) (child : Child) : Node :=
  .element "li" ⟨[("class", "nav-item"), ("role", "presentation")]⟩
    [.element "button"
      ⟨[("class", "nav-link" ++ if i = 0 then " active" else ""), ("id", toggleId id i),
        ("data-bs-toggle", "tab"), ("data-bs-target", '#' :: paneId id i), ("type", "button"),
        ("role", "tab")]⟩
      [.text (escape child.title)]]

def paneNode (i : Nat) (child : Child) : Node :=
  .element "div"
    ⟨[("class", "tab-pane fade" ++ if i = 0 then " active show" else ""), ("id", paneId id i),
      ("role", "tabpanel")]⟩
    [.text child.body]

def itemNode (i : Nat) (child : Child) : Node :=
  .element "div" ⟨[("class", "accordion-item")]⟩
    [.element "h2" ⟨[("class", "accordion-header"), ("id", headingId id i)]⟩
      [.element "button"
        ⟨[("class", "accordion-button" ++ if i = 0 then "" else " collapsed"), ("type", "button"),
          ("data-bs-toggle", "collapse"), ("data-bs-target", '#' :: itemId id i)]⟩
        [.text (escape child.title)]],
    .element "div"
      ⟨[("id", itemId id i),
        ("class", "accordion-collapse collapse" ++ if i = 0 then " show" else ""),
        ("data-bs-parent", '#' :: id)]⟩
      [.element "div" ⟨[("class", "accordion-body")]⟩ [.text child.body]]]

/-- Further names in a class list. -/
def classes (raw : Text) : Text :=
  (Piece.className ((Attributes.parse raw).getD "class" "")).fill escape id

def tabsNode (raw : Text) (children : List Child) : Node :=
  .element "div" ⟨[("class", "content-shortcodes-tabs" ++ classes escape id raw)]⟩
    [.element "ul" ⟨[("class", "nav nav-tabs"), ("id", id ++ ("-nav" : Text)), ("role", "tablist")]⟩
      (children.mapIdx (tabNode escape id)),
    .element "div" ⟨[("class", "tab-content"), ("id", id ++ ("-content" : Text))]⟩
      (children.mapIdx (paneNode id))]

def accordionNode (raw : Text) (children : List Child) : Node :=
  .element "div"
    ⟨[("class", "content-shortcodes-accordion accordion" ++ classes escape id raw), ("id", id)]⟩
    (children.mapIdx (itemNode escape id))

/-! ### Their markup -/

theorem parts_fill (i : Nat) (child : Child) :
    Template.fill escape id (tabToggle i child) = (tabNode escape id i child).write ∧
      Template.fill escape id (tabPane i child) = (paneNode id i child).write ∧
      Template.fill escape id (accordionItem i child) = (itemNode escape id i child).write := by
  unfold tabNode paneNode itemNode headingId
  -- Both sides are nested to the right, and what is left to compare are their literals.
  by_cases hi : i = 0
  all_goals
    simp only [hi, if_true, if_false, Template.fill, tabToggle, tabPane, accordionItem, Node.write,
      Node.writeAll, List.flatMap_cons, List.flatMap_nil, Piece.fill, number, Attributes.write,
      toggleId, paneId, itemId, List.append_assoc, List.cons_append, List.nil_append,
      List.append_nil]
    generalize Text.decimal i = digits
    repeat rw [String.toList_ofList]
    refine ⟨?_, ?_, ?_⟩
    all_goals cbv

/-- Numbered templates are written as numbered nodes are. -/
theorem numbered_fill {escape : Text → Text} {id : Text} {item : Nat → Child → Template}
    {node : Nat → Child → Node}
    (h : ∀ i child, Template.fill escape id (item i child) = (node i child).write)
    (children : List Child) :
    Template.fill escape id (numbered item children) = Node.writeAll (children.mapIdx node) := by
  rw [numbered, ← List.mapIdx_eq_zipIdx_map]
  induction children generalizing item node with
  | nil => rfl
  | cons child children ih =>
    have hrest := ih (fun i => h (i + 1))
    rw [List.mapIdx_cons, List.mapIdx_cons, List.flatten_cons, Node.writeAll, ← hrest, ← h]
    exact List.flatMap_append

/-- Tabs with children are written as their tree. -/
theorem tabs_eq {o : Occurrence} (h : o.children "tab" ≠ []) :
    ∃ markup, tabs o = .widget "tabs" markup [] ∧
      Template.fill escape id markup = (tabsNode escape id o.raw (o.children "tab")).write := by
  unfold tabs tabsNode classes
  generalize o.children "tab" = children at h ⊢
  generalize (Attributes.parse o.raw).getD "class" "" = name
  cases children with
  | nil => exact absurd rfl h
  | cons child children =>
    refine ⟨_, rfl, ?_⟩
    have htoggles := numbered_fill (fun i child => (parts_fill escape id i child).1)
      (child :: children)
    have hpanes := numbered_fill (fun i child => (parts_fill escape id i child).2.1)
      (child :: children)
    rw [Template.fill] at htoggles hpanes
    simp only [Template.fill, List.flatten_cons, List.flatten_nil, List.flatMap_append, htoggles,
      hpanes, Node.write, Node.writeAll, Attributes.write, List.flatMap_cons, List.flatMap_nil,
      List.append_assoc, List.cons_append, List.nil_append, List.append_nil]
    -- What the children write is the same on both sides and stays closed.
    generalize (Piece.className name).fill escape id = classes
    generalize Node.writeAll _ = toggles
    generalize Node.writeAll _ = panes
    repeat rw [String.toList_ofList]
    cbv

/-- An accordion with children is written as its tree. -/
theorem accordion_eq {o : Occurrence} (h : o.children "item" ≠ []) :
    ∃ markup, accordion o = .widget "accordion" markup [] ∧
      Template.fill escape id markup =
        (accordionNode escape id o.raw (o.children "item")).write := by
  unfold accordion accordionNode classes
  generalize o.children "item" = children at h ⊢
  generalize (Attributes.parse o.raw).getD "class" "" = name
  cases children with
  | nil => exact absurd rfl h
  | cons child children =>
    refine ⟨_, rfl, ?_⟩
    have hitems := numbered_fill (fun i child => (parts_fill escape id i child).2.2)
      (child :: children)
    rw [Template.fill] at hitems
    simp only [Template.fill, List.flatten_cons, List.flatten_nil, List.flatMap_append, hitems,
      Node.write, Attributes.write, List.flatMap_cons, List.flatMap_nil,
      List.append_assoc, List.cons_append, List.nil_append, List.append_nil]
    generalize (Piece.className name).fill escape id = classes
    generalize Node.writeAll _ = items
    repeat rw [String.toList_ofList]
    cbv

/-! ### Toggles and panels -/

theorem tabNode_toggles (i : Nat) (child : Child) :
    (tabNode escape id i child).toggles =
      [{ target := '#' :: paneId id i, label := escape child.title, active := i = 0 }] := by
  have hlabel : escape child.title ++ [] = escape child.title := List.append_nil _
  rw [← hlabel]
  by_cases hi : i = 0
  · subst hi
    rfl
  · simp only [tabNode, hi]
    rfl

theorem tabNode_panels (i : Nat) (child : Child) : (tabNode escape id i child).panels = [] :=
  rfl

theorem paneNode_toggles (i : Nat) (child : Child) : (paneNode id i child).toggles = [] :=
  rfl

theorem paneNode_panels (i : Nat) (child : Child) :
    (paneNode id i child).panels = [{ id := paneId id i, content := child.body, shown := i = 0 }] := by
  have hcontent : child.body ++ [] = child.body := List.append_nil _
  rw [← hcontent]
  by_cases hi : i = 0
  · subst hi
    rfl
  · simp only [paneNode, hi]
    rfl

theorem itemNode_toggles (i : Nat) (child : Child) :
    (itemNode escape id i child).toggles =
      [{ target := '#' :: itemId id i, label := escape child.title, active := i = 0 }] := by
  have hlabel : escape child.title ++ [] = escape child.title := List.append_nil _
  rw [← hlabel]
  by_cases hi : i = 0
  · subst hi
    rfl
  · simp only [itemNode, hi]
    rfl

theorem itemNode_panels (i : Nat) (child : Child) :
    (itemNode escape id i child).panels =
      [{ id := itemId id i, content := child.body, shown := i = 0 }] := by
  have hcontent : child.body ++ [] ++ [] = child.body := by simp
  rw [← hcontent]
  by_cases hi : i = 0
  · subst hi
    rfl
  · simp only [itemNode, hi]
    rfl

theorem tabsNode_toggles (raw : Text) (children : List Child) :
    (tabsNode escape id raw children).toggles =
      children.mapIdx fun i child =>
        { target := '#' :: paneId id i, label := escape child.title, active := i = 0 } := by
  have htoggles := Node.flatMap_mapIdx (tabNode_toggles escape id) children
  have hpanes := Node.flatMap_mapIdx_eq_nil (paneNode_toggles id) children
  rw [tabsNode, Node.toggles_element rfl, List.flatMap_cons, List.flatMap_singleton,
    Node.toggles_element rfl, Node.toggles_element rfl, htoggles, hpanes, List.append_nil]

theorem tabsNode_panels (raw : Text) (children : List Child) :
    (tabsNode escape id raw children).panels =
      children.mapIdx fun i child =>
        { id := paneId id i, content := child.body, shown := i = 0 } := by
  have htoggles := Node.flatMap_mapIdx_eq_nil (tabNode_panels escape id) children
  have hpanes := Node.flatMap_mapIdx (paneNode_panels id) children
  rw [tabsNode, Node.panels_element rfl, List.flatMap_cons, List.flatMap_singleton,
    Node.panels_element rfl, Node.panels_element rfl, htoggles, hpanes, List.nil_append]

theorem accordionNode_toggles (raw : Text) (children : List Child) :
    (accordionNode escape id raw children).toggles =
      children.mapIdx fun i child =>
        { target := '#' :: itemId id i, label := escape child.title, active := i = 0 } := by
  rw [accordionNode, Node.toggles_element rfl]
  exact Node.flatMap_mapIdx (itemNode_toggles escape id) children

theorem accordionNode_panels (raw : Text) (children : List Child) :
    (accordionNode escape id raw children).panels =
      children.mapIdx fun i child =>
        { id := itemId id i, content := child.body, shown := i = 0 } := by
  rw [accordionNode, Node.panels_element rfl]
  exact Node.flatMap_mapIdx (itemNode_panels escape id) children

/-- The ID of a panel: that of the widget, the keyword of the children and the number. -/
def panelId (keyword id : Text) (i : Nat) : Text :=
  id ++ '-' :: (keyword ++ '-' :: Text.decimal i)

end Expansion

namespace Kind

open Expansion Markup

/-- The tree of a tab group or an accordion. -/
def groupNode (k : Kind) (escape : Text → Text) (id raw : Text) (children : List Child) : Node :=
  match k with
  | .accordion => accordionNode escape id raw children
  | _ => tabsNode escape id raw children

variable {k : Kind} {keyword : Text} (hk : k.shape = .container keyword)
include hk

/-- A container with children is written as its tree. -/
theorem expand_group (h : Host) {o : Occurrence} (hne : o.children keyword ≠ [])
    (escape : Text → Text) (id : Text) :
    ∃ markup, k.expand h o = .widget k.stem markup [] ∧
      Template.fill escape id markup =
        (k.groupNode escape id o.raw (o.children keyword)).write := by
  cases k with
  | tabs =>
    cases hk
    exact tabs_eq escape id hne
  | accordion =>
    cases hk
    exact accordion_eq escape id hne
  | _ => cases hk

/-- Every child has a toggle that shows its title and names its panel. Only the first is active. -/
theorem groupNode_toggles (escape : Text → Text) (id raw : Text) (children : List Child) :
    (k.groupNode escape id raw children).toggles =
      children.mapIdx fun i child =>
        { target := '#' :: panelId keyword id i, label := escape child.title, active := i = 0 } := by
  cases k with
  | tabs =>
    cases hk
    exact tabsNode_toggles escape id raw children
  | accordion =>
    cases hk
    exact accordionNode_toggles escape id raw children
  | _ => cases hk

/-- Every child has a panel that holds its body. Only the first is shown. -/
theorem groupNode_panels (escape : Text → Text) (id raw : Text) (children : List Child) :
    (k.groupNode escape id raw children).panels =
      children.mapIdx fun i child =>
        { id := panelId keyword id i, content := child.body, shown := i = 0 } := by
  cases k with
  | tabs =>
    cases hk
    exact tabsNode_panels escape id raw children
  | accordion =>
    cases hk
    exact accordionNode_panels escape id raw children
  | _ => cases hk

end Kind

end Shortcode
