import Shortcode.Proofs.Engine.Stage

/-! # What a stage replaces

A stage replaces the shortcodes of its kind where the grammar says that they stand: from the left,
without overlaps, and nothing else. In a container the children are found by the same rule. -/

namespace Shortcode

namespace Kind

variable {k : Kind} {child : Text}

/-! ### Containers that are not closed -/

theorem unclosed_body (hk : k.shape = .container child) {part : Text} {o : Occurrence}
    (h : k.grammar part o) : Tag.Unclosed k.name o.body := by
  rw [grammar_container hk] at h
  obtain ⟨tag, rest, raw, body, rfl, -, hbody, rfl⟩ := h
  cases hbody with
  | intro hunclosed _ => exact hunclosed

/-- A container whose opening tag no closing tag follows is no shortcode. -/
theorem not_grammar_of_unclosed (hk : k.shape = .container child) {tag raw rest : Text}
    (htag : Tag.Opens k.name tag raw) (hrest : Tag.Unclosed k.name rest) {part after : Text}
    {o : Occurrence} (htext : tag ++ rest = part ++ after) : ¬ k.grammar part o := by
  intro h
  rw [grammar_container hk] at h
  obtain ⟨tag', enclosed, raw', body, rfl, htag', hbody, -⟩ := h
  obtain ⟨closing, rfl, hclosing⟩ := hbody.closing
  rw [List.append_assoc] at htext
  obtain ⟨-, -, hrest_eq⟩ := Tag.reads_opening.unique htag htag' htext
  refine hrest closing hclosing ⟨body, after, ?_⟩
  rw [hrest_eq]

/-- In front of an opening bracket behind which nothing is closed, shortcodes end. -/
theorem length_le_of_unclosed (hk : k.shape = .container child) {text after : Text}
    (hafter : Tag.Unclosed k.name ('[' :: after)) {before part rest : Text} {o : Occurrence}
    (htext : text ++ '[' :: after = before ++ (part ++ rest)) (h : k.grammar part o) :
    before.length + part.length ≤ text.length := by
  rw [grammar_container hk] at h
  obtain ⟨tag, enclosed, raw, body, rfl, -, hbody, -⟩ := h
  obtain ⟨closing, rfl, hclosing⟩ := hbody.closing
  have hsplit : text ++ '[' :: after = (before ++ (tag ++ body)) ++ (closing ++ rest) := by
    rw [htext]
    simp only [List.append_assoc]
  rcases List.append_eq_append_iff.mp hsplit with ⟨z, -, hz⟩ | ⟨z, hfront, hz⟩
  · exact absurd ⟨z, rest, by rw [hz, List.append_assoc]⟩ (hafter closing hclosing)
  · rcases List.append_eq_append_iff.mp hz with ⟨y, rfl, -⟩ | ⟨y, rfl, hy⟩
    · rw [hfront]
      simp only [List.length_append]
      omega
    · cases y with
      | nil =>
        rw [hfront]
        simp only [List.length_append, List.length_nil]
        omega
      | cons c y =>
        -- The bracket is the first character of the closing tag, which then lies behind `text`.
        obtain ⟨rfl, -⟩ := List.cons.inj hy
        have hnil := hclosing.eq_nil_of_append k.opening_not_mem_name
        subst hnil
        exact absurd ⟨[], rest, by rw [hy]; rfl⟩ (hafter _ hclosing)

/-- What a container warns of that has no children. -/
def childless : Kind → Warning
  | tabs => .noTabs
  | _ => .noItems

theorem expand_container (hk : k.shape = .container child) (h : Host) (o : Occurrence) :
    o.children child = [] ∧ k.expand h o = .warning k.childless ∨
      o.children child ≠ [] ∧ ∃ stem markup calls, k.expand h o = .widget stem markup calls := by
  cases k <;> cases hk
  · simp only [expand, Expansion.tabs]
    split
    · next hnil => exact .inl ⟨hnil, rfl⟩
    · next hne => exact .inr ⟨hne, _, _, _, rfl⟩
  · simp only [expand, Expansion.accordion]
    split
    · next hnil => exact .inl ⟨hnil, rfl⟩
    · next hne => exact .inr ⟨hne, _, _, _, rfl⟩

end Kind

namespace Engine

theorem stage?_append_unclosed (e : Engine) {k : Kind} {child : Text}
    (hk : k.shape = .container child) {after : Text}
    (hafter : Tag.Unclosed k.name ('[' :: after)) (drawn : List Text) (text : Text) :
    e.stage? k drawn (text ++ '[' :: after) =
      (e.stage? k drawn text).map (.surround [] ('[' :: after)) := by
  have hsegments : Scan.segments k.occurrence? (text ++ '[' :: after) =
      Scan.segments k.occurrence? text ++ ('[' :: after).map .gap := by
    refine Cut.segments_append k.reads_occurrence ?_
    intro before part rest o htext hpart
    exact Kind.length_le_of_unclosed hk hafter htext hpart
  exact e.stage?_surround k (p := []) hsegments drawn

/-! ### Every kind -/

/-- A text divides in exactly one way into gaps, in which no shortcode of a kind starts, and
shortcodes of the kind. The stage of the kind keeps the gaps and replaces the shortcodes from left
to right, and it answers nothing if there is no shortcode. -/
theorem stage_replaces_occurrences (e : Engine) (k : Kind) (drawn : List Text) (text : Text) :
    ∃ cut : Cut Occurrence, cut.IsLeftmostOf k.grammar text ∧
      (∀ other : Cut Occurrence, other.IsLeftmostOf k.grammar text → other = cut) ∧
      e.stage? k drawn text =
        if cut.values = [] then none else some (e.renderCut k drawn cut) := by
  obtain ⟨cut, hcut, hunique⟩ := Cut.exists_unique_isLeftmostOf k.reads_occurrence text
  exact ⟨cut, hcut, hunique, e.stage?_eq_renderCut k hcut drawn⟩

/-! ### Containers -/

/-- The stage of a container replaces bodies that end at the first closing tag and leaves alone
what is not closed. The children of a body are the leftmost titled tags with bodies that end at
their first closing tag. A container without children becomes the block of its warning, and no other
one warns. -/
theorem container_stage_follows_grammar (e : Engine) {k : Kind} {child : Text}
    (hk : k.shape = .container child) (drawn : List Text) (text : Text) :
    (∃ cut : Cut Occurrence, cut.IsLeftmostOf k.grammar text ∧
      (∀ other : Cut Occurrence, other.IsLeftmostOf k.grammar text → other = cut) ∧
      e.stage? k drawn text =
        (if cut.values = [] then none else some (e.renderCut k drawn cut)) ∧
      ∀ o ∈ cut.values, Tag.Unclosed k.name o.body) ∧
    (∀ before tag raw rest, text = before ++ (tag ++ rest) → Tag.Opens k.name tag raw →
      (Tag.Unclosed k.name rest →
        ∀ part after o, tag ++ rest = part ++ after → ¬ k.grammar part o) ∧
      (Tag.Unclosed k.name (tag ++ rest) →
        e.stage? k drawn text = (e.stage? k drawn before).map (.surround [] (tag ++ rest)))) ∧
    ∀ o : Occurrence, ∃ cut : Cut Child, cut.IsLeftmostOf (Child.grammar child) o.body ∧
      (∀ other : Cut Child, other.IsLeftmostOf (Child.grammar child) o.body → other = cut) ∧
      o.children child = cut.values ∧
      ((∃ w, k.expand e.host o = .warning w) ↔ cut.values = []) ∧
      let settled := (k.expand e.host o).settle e.host.escape e.ids drawn
      (cut.values = [] → settled = { text := k.childless.block, warnings := [k.childless], drawn }) ∧
      (cut.values ≠ [] → settled.warnings = []) := by
  refine ⟨?_, ?_, ?_⟩
  · obtain ⟨cut, hcut, hunique⟩ := Cut.exists_unique_isLeftmostOf k.reads_occurrence text
    refine ⟨cut, hcut, hunique, e.stage?_eq_renderCut k hcut drawn, ?_⟩
    intro o ho
    obtain ⟨part, -, hpart⟩ := hcut.2.grammar_of_mem ho
    exact Kind.unclosed_body hk hpart
  · intro before tag raw rest htext htag
    constructor
    · intro hrest part after o
      exact Kind.not_grammar_of_unclosed hk htag hrest
    · intro hunclosed
      obtain ⟨inner, rfl⟩ := htag.bracketed
      rw [htext]
      exact e.stage?_append_unclosed hk hunclosed drawn before
  · intro o
    have hreads := Child.reads_read (Kind.opening_not_mem_child hk)
    obtain ⟨cut, hcut, hunique⟩ := Cut.exists_unique_isLeftmostOf hreads o.body
    have hchildren : o.children child = cut.values := by
      rw [Occurrence.children, ← hcut.1, hcut.2.hits_text hreads]
    refine ⟨cut, hcut, hunique, hchildren, ?_⟩
    rw [← hchildren]
    rcases Kind.expand_container hk e.host o with ⟨hnil, hwarning⟩ | ⟨hne, stem, markup, calls, hwidget⟩
    · rw [hwarning]
      exact ⟨iff_of_true ⟨_, rfl⟩ hnil, fun _ => rfl, fun hne => absurd hnil hne⟩
    · rw [hwidget]
      exact ⟨iff_of_false (by simp) hne, fun hnil => absurd hnil hne, fun _ => rfl⟩

/-- A tab without a title and a tab with more than a title are passed over. Without any other tab
there is a warning. -/
theorem tabs_stage_passes_over_untitled :
    Kind.tabs.shape = .container "tab" ∧ ∃ cut : Cut Child,
      cut.IsLeftmostOf (Child.grammar "tab")
        "[tab]a[tab title=\"x\"]b[/TAB] [tab title=\"y\" id=\"z\"]c[/tab]" ∧
      cut.values = [⟨"x", "b"⟩] ∧
      (Kind.tabs.expand { token := [] } ⟨[], "[tab]a[/tab]"⟩).settle Markup.escape .sequential [] =
        { text := Warning.noTabs.block, warnings := [.noTabs], drawn := [] } := by
  let e : Engine := { host := { token := [] }, ids := .sequential }
  let o : Occurrence := ⟨[], "[tab]a[tab title=\"x\"]b[/TAB] [tab title=\"y\" id=\"z\"]c[/tab]"⟩
  let untitled : Occurrence := ⟨[], "[tab]a[/tab]"⟩
  have hk : Kind.tabs.shape = .container "tab" := rfl
  obtain ⟨-, -, hbodies⟩ := container_stage_follows_grammar e hk [] []
  obtain ⟨cut, hcut, -, hchildren, -⟩ := hbodies o
  obtain ⟨none, -, -, hnone, -, hwarning, -⟩ := hbodies untitled
  have hread : o.children "tab" = [⟨"x", "b"⟩] := by decide
  have hunread : untitled.children "tab" = [] := by decide
  exact ⟨hk, cut, hcut, hchildren.symm.trans hread, hwarning (hnone.symm.trans hunread)⟩

end Engine

end Shortcode
