import Shortcode.Proofs.Engine.Rescan
import Shortcode.Proofs.Expansion.Panels
import Shortcode.Proofs.Tag.Groups

/-! # Renderings of written groups

A tab group or an accordion that is written with some children shows these children. -/

namespace Shortcode

namespace Engine

open Expansion (panelId)

variable (e : Engine) {k : Kind} {keyword : Text}

/-- A written group is replaced by a tree that depends on its attributes and children alone, not on the
filler between them. The tree has one toggle and one panel per child, in order: the toggle shows the
escaped title and names the panel, and the panel holds the body as it is. Only the first ones are
active. -/
theorem written_group_shows_children (hk : k.shape = .container keyword) (drawn : List Text)
    {tag raw : Text} (htag : Tag.Opens k.name tag raw) {parts : List Child.Written}
    (hne : parts ≠ []) (hparts : ∀ w ∈ parts, w.Fits k.name keyword) {filler closing : Text}
    (hfiller : '[' ∉ filler) (hclosing : Tag.Closes k.name closing) :
    let children := parts.map Child.Written.child
    let id := e.ids.next drawn k.stem
    let node := k.groupNode e.host.escape id raw children
    e.renderOnly k drawn (tag ++ (parts.flatMap Child.Written.text ++ (filler ++ closing))) =
        { text := node.write, calls := [.id k.stem], drawn := k.stem :: drawn } ∧
      node.toggles = children.mapIdx (fun i child =>
        { target := '#' :: panelId keyword id i
          label := e.host.escape child.title
          active := i = 0 }) ∧
      node.panels = children.mapIdx fun i child =>
        { id := panelId keyword id i, content := child.body, shown := i = 0 } := by
  intro children id node
  obtain ⟨o, rfl, hchildren, hpart⟩ := Kind.grammar_written hk htag hparts hfiller hclosing
  have hsome : o.children keyword ≠ [] := by
    rw [hchildren]
    simpa using hne
  obtain ⟨markup, hexpand, hfill⟩ := Kind.expand_group hk e.host hsome e.host.escape id
  have hrender := e.renderOnly_of_grammar drawn hpart
  rw [hexpand, Expansion.settle, hfill, hchildren] at hrender
  exact ⟨hrender, Kind.groupNode_toggles hk e.host.escape id o.raw children,
    Kind.groupNode_panels hk e.host.escape id o.raw children⟩

/-- Titles with a closing bracket, the closing tag of a child and markup, bodies with quotes and opening
tags, and the same group with two fillers. -/
theorem written_group_shows_awkward_children :
    let e : Engine := { host := { token := [] }, ids := .sequential }
    let first : Child := ⟨"a] [/tab]", "\"x\" [tabs] [tab title=\"n\"]"⟩
    let second : Child := ⟨"<b>", "[/item] [/ tab]\n"⟩
    let parts (filler : Text) : List Child.Written :=
      [⟨filler, "[tab title=\"a] [/tab]\"]", first, "[/tab]"⟩,
        ⟨filler, "[TAB\t TITLE=\"<b>\"]", second, "[/Tab]"⟩]
    let text (filler : Text) : Text :=
      "[Tabs class=\"c\"]" ++ ((parts filler).flatMap Child.Written.text ++ (filler ++ "[/tabs]"))
    let node := Kind.tabs.groupNode Markup.escape "tabs-1" "class=\"c\"" [first, second]
    (e.renderOnly .tabs [] (text "]\n")).text = node.write ∧
      (e.renderOnly .tabs [] (text "/tab]")).text = node.write ∧
      node.toggles = [⟨"#tabs-1-tab-0", "a] [/tab]", true⟩, ⟨"#tabs-1-tab-1", "&lt;b&gt;", false⟩] ∧
      node.panels = [⟨"tabs-1-tab-0", first.body, true⟩, ⟨"tabs-1-tab-1", second.body, false⟩] := by
  intro e first second parts text node
  have htag : Tag.Opens Kind.tabs.name "[Tabs class=\"c\"]" "class=\"c\"" :=
    Tag.reads_opening.grammar_of_read (by decide +kernel)
  have hk : Kind.tabs.shape = .container "tab" := rfl
  have hclosing : Tag.Closes Kind.tabs.name "[/tabs]" := by decide
  have hparts : ∀ w ∈ parts "]\n", w.Fits Kind.tabs.name "tab" := by decide +kernel
  have hparts' : ∀ w ∈ parts "/tab]", w.Fits Kind.tabs.name "tab" := by decide +kernel
  have hfiller : '[' ∉ ("]\n" : Text) := by decide
  have hfiller' : '[' ∉ ("/tab]" : Text) := by decide
  obtain ⟨hrender, htoggles, hpanels⟩ := e.written_group_shows_children hk [] htag
    (List.cons_ne_nil _ _) hparts hfiller hclosing
  obtain ⟨hrender', -⟩ := e.written_group_shows_children hk [] htag
    (List.cons_ne_nil _ _) hparts' hfiller' hclosing
  refine ⟨congrArg Rendering.text hrender, congrArg Rendering.text hrender', htoggles.trans ?_,
    hpanels.trans ?_⟩
  · decide +kernel
  · decide +kernel

end Engine

end Shortcode
