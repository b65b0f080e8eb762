import Shortcode.Proofs.Engine.Change
import Shortcode.Proofs.Tag.Begun

/-! # No stage forges a tag

A text in which no tag of a kind has begun stays so through every stage, whatever the stages of the
other kinds drop, escape or put together. Hence the stage of the kind finds nothing, and switching
it off changes nothing. -/

namespace Shortcode

/-- No tag begins in a gap of a cut, nor in the attributes or the body of a shortcode. -/
def Cut.FreeOf (keyword : Text) : Cut Occurrence → Prop
  | .last gap => ¬ Tag.BegunIn keyword gap
  | .next gap _ o rest =>
    ¬ Tag.BegunIn keyword gap ∧ ¬ Tag.BegunIn keyword o.raw ∧ ¬ Tag.BegunIn keyword o.body ∧
      rest.FreeOf keyword

theorem Cut.freeOf_of_not_begunIn {k l : Kind} {cut : Cut Occurrence}
    (hcut : cut.IsLeftmost l.grammar) (h : ¬ Tag.BegunIn k.name cut.text) : cut.FreeOf k.name := by
  have hpart : ∀ {x y : Text}, x <:+: y → ¬ Tag.BegunIn k.name y → ¬ Tag.BegunIn k.name x :=
    k.inherited_not_begunIn.part
  induction cut with
  | last gap => exact h
  | next gap part o rest ih =>
    obtain ⟨-, hgrammar, hrest⟩ := hcut
    have hgap : ¬ Tag.BegunIn k.name gap := hpart ⟨[], part ++ rest.text, by simp [Cut.text]⟩ h
    have hoccurrence : ¬ Tag.BegunIn k.name part := hpart ⟨gap, rest.text, rfl⟩ h
    have htail : ¬ Tag.BegunIn k.name rest.text := hpart ⟨gap ++ part, [], by simp [Cut.text]⟩ h
    obtain ⟨hraw, hbody⟩ := Kind.isInfix_of_grammar hgrammar
    exact ⟨hgap, hpart hraw hoccurrence, hpart hbody hoccurrence, ih hrest htail⟩

namespace Engine

variable (e : Engine) {k : Kind} {drawn : List Text} {text : Text}

section Bracketless

variable (hescape : e.host.escape = Markup.escape)
  (hids : ∀ drawn (l : Kind), '[' ∉ e.ids.next drawn l.stem)
  (hhost : e.host.Answers fun x => ¬ Tag.BegunIn k.name x)

include hescape hids hhost

/-- What replaces a shortcode begins a tag only where its attributes, its body, the host or what
follows it does. -/
theorem not_begunIn_settle_append (l : Kind) {o : Occurrence} {rest : Text}
    (hraw : ¬ Tag.BegunIn k.name o.raw) (hbody : ¬ Tag.BegunIn k.name o.body)
    (hrest : ¬ Tag.BegunIn k.name rest) :
    ¬ Tag.BegunIn k.name
      (((l.expand e.host o).settle e.host.escape e.ids drawn).text ++ rest) := by
  have hid : '[' ∉ (l.expand e.host o).id e.ids drawn := by
    cases hx : (l.expand e.host o).stem? with
    | none => simp [Expansion.id, hx]
    | some stem =>
      have hdrawn := hids drawn l
      rw [← Kind.stem?_expand hx] at hdrawn
      simpa [Expansion.id, hx] using hdrawn
  have hsupplied := Kind.supplies_expand k.inherited_not_begunIn l hhost hraw hbody
    (Tag.BegunIn.not_of_not_mem hid)
  obtain ⟨hfree, hfit⟩ := Markup.Template.isTidy_iff.mp (l.isTidy_expand e.host o)
  have hsettled : ((l.expand e.host o).settle e.host.escape e.ids drawn).text =
      (l.expand e.host o).template.fill Markup.escape ((l.expand e.host o).id e.ids drawn) := by
    rw [← hescape]
    exact Expansion.settle_text ..
  rw [hsettled]
  exact Markup.Template.not_begunIn_fill hfree hfit hid hsupplied hrest

theorem not_begunIn_renderCut (l : Kind) {cut : Cut Occurrence} (h : cut.FreeOf k.name) :
    ¬ Tag.BegunIn k.name (e.renderCut l drawn cut).text := by
  induction cut generalizing drawn with
  | last gap => exact h
  | next gap part o rest ih =>
    obtain ⟨hgap, hraw, hbody, hrest⟩ := h
    let r := (l.expand e.host o).settle e.host.escape e.ids drawn
    have hexpanded : ¬ Tag.BegunIn k.name (r.text ++ (e.renderCut l r.drawn rest).text) :=
      e.not_begunIn_settle_append hescape hids hhost l hraw hbody (ih hrest)
    -- The angle bracket of the expansion sets it off from the gap in front of it.
    obtain ⟨tail, hangle⟩ := l.expand_text_eq_cons e.host e.host.escape e.ids drawn o
    have hjoined : (e.renderCut l drawn (.next gap part o rest)).text =
        gap ++ '<' :: (tail ++ (e.renderCut l r.drawn rest).text) := by
      simp only [renderCut, r, hangle, List.append_assoc, List.cons_append]
    have hstart : r.text = '<' :: tail := hangle
    rw [hstart, List.cons_append] at hexpanded
    rw [hjoined]
    intro hbegun
    rcases Kind.begunIn_append_cons (by decide) hbegun with hbegun | hbegun
    · exact hgap hbegun
    · exact hexpanded hbegun

/-- A stage of any kind keeps a text without begun tags of the kind `k`. -/
theorem not_begunIn_advance (l : Kind) {r : Rendering} (h : ¬ Tag.BegunIn k.name r.text) :
    ¬ Tag.BegunIn k.name (e.advance r l).text := by
  obtain ⟨cut, hcut⟩ := Cut.exists_isLeftmostOf l.reads_occurrence r.text
  simp only [advance, e.stage?_eq_renderCut l hcut]
  by_cases hvalues : cut.values = []
  · simpa only [if_pos hvalues] using h
  · obtain ⟨htext, hcut⟩ := hcut
    rw [← htext] at h
    simpa only [if_neg hvalues, Rendering.andThen] using
      e.not_begunIn_renderCut hescape hids hhost l (Cut.freeOf_of_not_begunIn hcut h)

theorem not_begunIn_foldl_advance (kinds : List Kind) {r : Rendering}
    (h : ¬ Tag.BegunIn k.name r.text) : ¬ Tag.BegunIn k.name (kinds.foldl e.advance r).text := by
  induction kinds generalizing r with
  | nil => exact h
  | cons l kinds ih => exact ih (e.not_begunIn_advance hescape hids hhost l h)

omit hescape hids hhost in
/-- The stage of a kind finds nothing where no tag of the kind has begun. -/
theorem advance_eq_self_of_not_begunIn {r : Rendering} (h : ¬ Tag.BegunIn k.name r.text) :
    e.advance r k = r := by
  apply e.advance_eq_self
  exact fun hoccurs => h (Kind.begunIn_of_occursIn hoccurs)

theorem foldl_advance_filter (kinds : List Kind) {r : Rendering}
    (h : ¬ Tag.BegunIn k.name r.text) :
    (kinds.filter (· ≠ k)).foldl e.advance r = kinds.foldl e.advance r := by
  induction kinds generalizing r with
  | nil => rfl
  | cons l kinds ih =>
    by_cases hl : l = k
    · subst hl
      simpa [e.advance_eq_self_of_not_begunIn h] using ih h
    · simpa [hl] using ih (e.not_begunIn_advance hescape hids hhost l h)

end Bracketless

end Engine

theorem Switches.enabled_set_false (s : Switches) (k : Kind) :
    (s.set k false).enabled = (s.set k true).enabled.filter (· ≠ k) := by
  simp only [enabled, List.filter_filter]
  refine List.filter_congr ?_
  intro l _
  by_cases hl : l = k <;> simp [hl]

namespace Engine

/-- Where no tag of a kind has begun, none begins in any text between two stages or in the final
one, and the rendering is the same whether the kind is switched on or off. -/
theorem render_forges_no_tag (e : Engine) (hescape : e.host.escape = Markup.escape)
    (hids : ∀ drawn (l : Kind), '[' ∉ e.ids.next drawn l.stem) (hhost : e.host.Answers ('[' ∉ ·))
    (k : Kind) (drawn : List Text) {text : Text} (h : ¬ Tag.BegunIn k.name text) :
    (∀ kinds, kinds <+: e.switches.enabled →
      ¬ Tag.BegunIn k.name (kinds.foldl e.advance (.start drawn text)).text) ∧
    { e with switches := e.switches.set k true }.render drawn text =
      { e with switches := e.switches.set k false }.render drawn text := by
  have hhost : e.host.Answers fun x => ¬ Tag.BegunIn k.name x :=
    hhost.mono fun _ hx => Tag.BegunIn.not_of_not_mem hx
  refine ⟨fun kinds _ => e.not_begunIn_foldl_advance hescape hids hhost kinds h, ?_⟩
  have hstart : ¬ Tag.BegunIn k.name (Rendering.start drawn text).text := h
  simp only [render, advance_switches, Switches.enabled_set_false]
  exact (e.foldl_advance_filter hescape hids hhost _ hstart).symm

theorem opening_not_mem_sequential (drawn : List Text) (l : Kind) :
    '[' ∉ Ids.sequential.next drawn l.stem := by
  intro hmem
  have hnumber := Text.not_mem_of_isBracketFree (Text.isBracketFree_decimal (drawn.length + 1))
    (b := '[') (.inl rfl)
  have hstem : '[' ∉ l.stem := by cases l <;> decide
  rcases List.mem_append.mp hmem with hmem | hmem
  · exact hstem hmem
  · simp [hnumber] at hmem

/-- A host with nothing of its own. -/
theorem answers_bare : ({ token := [] } : Host).Answers ('[' ∉ ·) where
  image := fun id image hfound => by cases hfound
  token := by decide
  url := by decide
  label := fun l => by cases l <;> decide

/-- An accordion drops the text in front of an item. It does not put the two halves of a countdown
together by that. -/
theorem render_accordion_forges_no_tag :
    let e : Engine := { host := { token := [] }, ids := .sequential }
    let text : Text :=
      "[accordion][count[item title=\"x\"]down date=\"2030-01-01\"][/item][/accordion]"
    (∀ drawn (l : Kind), '[' ∉ e.ids.next drawn l.stem) ∧ e.host.Answers ('[' ∉ ·) ∧
      ¬ Tag.BegunIn Kind.countdown.name text ∧
      { e with switches := e.switches.set .countdown true }.render [] text =
        { e with switches := e.switches.set .countdown false }.render [] text := by
  intro e text
  have hids : ∀ drawn (l : Kind), '[' ∉ e.ids.next drawn l.stem := opening_not_mem_sequential
  have htext : ¬ Tag.BegunIn Kind.countdown.name text := by decide +kernel
  exact ⟨hids, answers_bare, htext,
    (e.render_forges_no_tag rfl hids answers_bare .countdown [] htext).2⟩

end Engine

end Shortcode
