import Shortcode.Proofs.Engine.Change
import Shortcode.Proofs.Expansion.Supplied
import Shortcode.Proofs.Markup.Tidy

/-! # Rescanning

Every stage reads the whole text that the stage before it leaves, so a later stage also reads what
an earlier one generated. Escaping does not touch square brackets. Hence supplied values can bring
a shortcode into the markup, and its own stage then expands it. -/

namespace Shortcode

namespace Kind

/-- The kinds in front of a kind in the pipeline. -/
def earlier (k : Kind) : List Kind :=
  pipeline.take k.index

/-- The kinds behind a kind in the pipeline. -/
def later (k : Kind) : List Kind :=
  pipeline.drop (k.index + 1)

theorem pipeline_eq_append (k : Kind) : pipeline = k.earlier ++ k :: k.later := by
  cases k <;> rfl

variable {k : Kind} {part : Text} {o : Occurrence}

theorem count_of_lone (hk : k.shape = .lone) (h : k.grammar part o) : part.count ']' = 1 := by
  obtain ⟨htag, -⟩ := (grammar_lone hk).mp h
  obtain ⟨inner, rfl, hinner⟩ := htag.exists_inner k.closing_not_mem_name
  have hcount := List.count_eq_zero.mpr hinner
  simp [hcount]

/-- A shortcode with a body without opening brackets has a closing bracket in either tag. -/
theorem two_le_count_of_leaf (hk : k.shape = .leaf) (h : k.grammar part o) :
    2 ≤ part.count ']' := by
  rw [grammar_leaf hk] at h
  obtain ⟨tag, rest, raw, body, rfl, htag, hbody, -⟩ := h
  obtain ⟨closing, rfl, hclosing⟩ := hbody.closing
  have hopens := List.count_pos_iff.mpr htag.bracketed.mem_closing
  have hcloses := List.count_pos_iff.mpr hclosing.bracketed.mem_closing
  simp only [List.count_append]
  omega

/-- The attributes hold no closing bracket and the body no opening one. -/
theorem brackets_of_leaf (hk : k.shape = .leaf) (h : k.grammar part o) :
    ']' ∉ o.raw ∧ '[' ∉ o.body := by
  rw [grammar_leaf hk] at h
  obtain ⟨tag, rest, raw, body, -, htag, hbody, rfl⟩ := h
  cases hbody with
  | intro hfree _ => exact ⟨htag.closing_not_mem, hfree⟩

theorem not_occursIn_of_lone {l : Kind} (hk : k.shape = .lone) (hl : l.shape = .leaf)
    (h : k.grammar part o) : ¬ l.grammar.OccursIn part := by
  rintro ⟨before, part', rest, o', rfl, hpart⟩
  have hone := count_of_lone hk h
  have htwo := two_le_count_of_leaf hl hpart
  simp only [List.count_append] at hone
  omega

end Kind

namespace Engine

/-- The rendering of a text with every kind switched on. -/
def renderAll (e : Engine) (drawn : List Text) (text : Text) : Rendering :=
  { e with switches := .allOn }.render drawn text

/-- The rendering of a text with one kind switched on. -/
def renderOnly (e : Engine) (k : Kind) (drawn : List Text) (text : Text) : Rendering :=
  { e with switches := .only [k] }.render drawn text

variable (e : Engine)

theorem renderOnly_eq_advance (k : Kind) (drawn : List Text) (text : Text) :
    e.renderOnly k drawn text = e.advance (.start drawn text) k := by
  have henabled : (Switches.only [k]).enabled = [k] := by cases k <;> rfl
  simp only [renderOnly, render, henabled, advance_switches, List.foldl_cons, List.foldl_nil]

theorem render_eq_foldl {k : Kind} (hk : e.switches.isOn k = true) (drawn : List Text) {text : Text}
    (h : ∀ l ∈ k.earlier, ¬ l.grammar.OccursIn text) :
    e.render drawn text =
      (k.later.filter e.switches.isOn).foldl e.advance (e.renderOnly k drawn text) := by
  have henabled : e.switches.enabled =
      k.earlier.filter e.switches.isOn ++ k :: k.later.filter e.switches.isOn := by
    rw [Switches.enabled, k.pipeline_eq_append, List.filter_append, List.filter_cons_of_pos hk]
  have hearlier : (k.earlier.filter e.switches.isOn).foldl e.advance (.start drawn text) =
      .start drawn text := e.foldl_advance_eq_self fun l hl => h l (List.mem_of_mem_filter hl)
  rw [render, henabled, List.foldl_append, hearlier, List.foldl_cons, renderOnly_eq_advance]

section

variable {e : Engine} {k : Kind} {drawn : List Text} {text : Text}

theorem render_eq_renderOnly (hk : e.switches.isOn k = true)
    (hearlier : ∀ l ∈ k.earlier, ¬ l.grammar.OccursIn text)
    (hlater : ∀ l ∈ k.later, e.switches.isOn l = true →
      ¬ l.grammar.OccursIn (e.renderOnly k drawn text).text) :
    e.render drawn text = e.renderOnly k drawn text := by
  rw [e.render_eq_foldl hk drawn hearlier]
  refine e.foldl_advance_eq_self fun l hl => ?_
  obtain ⟨hl, hon⟩ := List.mem_filter.mp hl
  exact hlater l hl hon

/-- What a stage makes comes through the later ones if and only if it holds no shortcode for them.
None of them gives back a text that it changes. -/
theorem render_text_eq_iff (hk : e.switches.isOn k = true)
    (hearlier : ∀ l ∈ k.earlier, ¬ l.grammar.OccursIn text) :
    (e.render drawn text).text = (e.renderOnly k drawn text).text ↔
      ∀ l ∈ k.later, e.switches.isOn l = true →
        ¬ l.grammar.OccursIn (e.renderOnly k drawn text).text := by
  constructor
  · intro htext l hl hon hoccurs
    have hchange := e.foldl_advance_rewritten ⟨l, List.mem_filter.mpr ⟨hl, hon⟩, hoccurs⟩
    rw [← e.render_eq_foldl hk drawn hearlier] at hchange
    exact hchange.ne htext
  · intro hlater
    rw [render_eq_renderOnly hk hearlier hlater]

end

theorem renderOnly_eq_renderCut {k : Kind} {text : Text} {cut : Cut Occurrence}
    (h : cut.IsLeftmostOf k.grammar text) (drawn : List Text) :
    e.renderOnly k drawn text = e.renderCut k drawn cut := by
  have hstage := e.stage?_eq_renderCut k h drawn
  rw [renderOnly_eq_advance]
  simp only [advance, Rendering.start, hstage]
  cases cut with
  | last gap =>
    obtain ⟨rfl, -⟩ := h
    rfl
  | next gap part o rest => rfl

theorem renderOnly_of_grammar {k : Kind} (drawn : List Text) {text : Text} {o : Occurrence}
    (h : k.grammar text o) :
    e.renderOnly k drawn text = (k.expand e.host o).settle e.host.escape e.ids drawn := by
  rw [e.renderOnly_eq_renderCut (Cut.isLeftmostOf_next_nil h)]
  simp [renderCut, Rendering.start]

/-- Without an opening bracket, or without a closing one, there is no shortcode. -/
theorem not_occursIn_of_not_mem {b : Char} (hb : IsBracket b) {text : Text} (h : b ∉ text)
    (k : Kind) : ¬ k.grammar.OccursIn text := by
  rintro ⟨before, part, rest, o, rfl, hpart⟩
  have hbracketed := k.bracketed_of_grammar hpart
  have hmem : b ∈ part := by
    rcases hb with rfl | rfl
    · exact hbracketed.mem_opening
    · exact hbracketed.mem_closing
  exact h (List.mem_append_left _ (List.mem_append_right _ hmem))

/-- The later stages leave the markup of a shortcode alone if the supplied values leave out one of
the square brackets. -/
theorem not_occursIn_renderOnly (hescape : e.host.escape = Markup.escape) {k : Kind}
    (drawn : List Text) {text : Text} {o : Occurrence} (h : k.grammar text o) {b : Char}
    (hb : IsBracket b) (hsupplied : ∀ v ∈ (k.expand e.host o).supplied e.ids drawn, b ∉ v)
    (l : Kind) : ¬ l.grammar.OccursIn (e.renderOnly k drawn text).text := by
  refine not_occursIn_of_not_mem hb ?_ l
  intro hmem
  rw [e.renderOnly_of_grammar drawn h, hescape] at hmem
  obtain ⟨v, hv, hmem⟩ := Expansion.mem_settle_text (fun _ => (Markup.mem_escape_iff hb).mp)
    (k.isBracketFree_expand e.host o) hb hmem
  exact hsupplied v hv hmem

/-- Nothing in front of the stage of a button or a gallery reads its text. -/
theorem not_occursIn_earlier {k : Kind} (hk : k = .button ∨ k = .gallery) {text : Text}
    {o : Occurrence} (h : k.grammar text o) : ∀ l ∈ k.earlier, ¬ l.grammar.OccursIn text := by
  intro l hl
  rcases hk with rfl | rfl
  · cases hl
  · have hleaf : ∀ l ∈ Kind.gallery.earlier, l.shape = .leaf := by decide
    exact Kind.not_occursIn_of_lone rfl (hleaf l hl) h

theorem not_occursIn_button (hescape : e.host.escape = Markup.escape) (drawn : List Text)
    {text : Text} {o : Occurrence} (h : Kind.button.grammar text o)
    (hbrackets : '[' ∉ o.raw ∨ ']' ∉ o.body) (l : Kind) :
    ¬ l.grammar.OccursIn (e.renderOnly .button drawn text).text := by
  obtain ⟨hraw, hbody⟩ := Kind.brackets_of_leaf rfl h
  rcases hbrackets with hopening | hclosing
  · exact e.not_occursIn_renderOnly hescape drawn h (.inl rfl)
      (Expansion.not_mem_supplied_button (.inl rfl) hopening hbody) l
  · exact e.not_occursIn_renderOnly hescape drawn h (.inr rfl)
      (Expansion.not_mem_supplied_button (.inr rfl) hraw hclosing) l

theorem not_occursIn_gallery (hescape : e.host.escape = Markup.escape) {drawn : List Text}
    {text : Text} {o : Occurrence} (h : Kind.gallery.grammar text o)
    (hid : ']' ∉ e.ids.next drawn "gallery")
    (himage : ∀ id image, e.host.image? id = some image →
      ']' ∉ image.url ∧ ']' ∉ image.alt ∧ ']' ∉ image.caption) (l : Kind) :
    ¬ l.grammar.OccursIn (e.renderOnly .gallery drawn text).text := by
  obtain ⟨htag, -⟩ := (Kind.grammar_lone rfl).mp h
  have hsupplied := Expansion.not_mem_supplied_gallery (.inr rfl) htag.closing_not_mem hid himage
  exact e.not_occursIn_renderOnly hescape drawn h (.inr rfl) hsupplied l

/-- The markup of a text that is one button or one gallery comes through the later stages unchanged
if and only if it holds no shortcode of a later kind. A button holds none unless its attributes
open a bracket and its body closes one. A gallery holds none if neither its images nor its ID close
a bracket. -/
theorem renderAll_eq_renderOnly_iff (e : Engine) (hescape : e.host.escape = Markup.escape)
    (drawn : List Text) {k : Kind} (hk : k = .button ∨ k = .gallery) {text : Text} {o : Occurrence}
    (h : k.grammar text o) :
    (((e.renderAll drawn text).text = (e.renderOnly k drawn text).text ∧
        (e.renderAll drawn text).warnings = (e.renderOnly k drawn text).warnings) ↔
      ∀ l ∈ k.later, ¬ l.grammar.OccursIn (e.renderOnly k drawn text).text) ∧
    (k = .button → '[' ∉ o.raw ∨ ']' ∉ o.body →
      e.renderAll drawn text = e.renderOnly k drawn text) ∧
    (k = .gallery → ']' ∉ e.ids.next drawn "gallery" →
      (∀ id image, e.host.image? id = some image →
        ']' ∉ image.url ∧ ']' ∉ image.alt ∧ ']' ∉ image.caption) →
      e.renderAll drawn text = e.renderOnly k drawn text) := by
  let all : Engine := { e with switches := .allOn }
  have hon : ∀ l, all.switches.isOn l = true := fun l => by cases l <;> rfl
  have hearlier := not_occursIn_earlier hk h
  have hsame : (∀ l ∈ k.later, ¬ l.grammar.OccursIn (e.renderOnly k drawn text).text) →
      e.renderAll drawn text = e.renderOnly k drawn text := by
    intro hlater
    exact render_eq_renderOnly (e := all) (hon k) hearlier fun l hl _ => hlater l hl
  refine ⟨⟨?_, ?_⟩, ?_, ?_⟩
  · rintro ⟨htext, -⟩ l hl
    exact (render_text_eq_iff (e := all) (hon k) hearlier).mp htext l hl (hon l)
  · intro hlater
    rw [hsame hlater]
    exact ⟨rfl, rfl⟩
  · rintro rfl hbrackets
    exact hsame fun l _ => e.not_occursIn_button hescape drawn h hbrackets l
  · rintro rfl hid himage
    exact hsame fun l _ => e.not_occursIn_gallery hescape h hid himage l

/-- A button keeps an opening bracket in its link. -/
theorem renderAll_button_opening_bracket :
    let e : Engine := { host := { token := [] }, ids := .sequential }
    e.renderAll [] "[button url=\"/?a[\"]Go[/button]" =
      e.renderOnly .button [] "[button url=\"/?a[\"]Go[/button]" := by
  intro e
  have h : Kind.button.grammar "[button url=\"/?a[\"]Go[/button]" ⟨"url=\"/?a[\"", "Go"⟩ :=
    (Kind.reads_occurrence .button).grammar_of_read (by decide)
  exact (renderAll_eq_renderOnly_iff e rfl [] (.inl rfl) h).2.1 rfl (.inr (by decide))

/-- The alternative text of an image can hold a countdown, which a later stage expands inside the
attribute. -/
theorem renderAll_ne_renderOnly :
    ¬ ∀ (e : Engine) (drawn : List Text) (k : Kind) (text : Text) (o : Occurrence),
      e.host.escape = Markup.escape → (k = .button ∨ k = .gallery) → k.grammar text o →
        (e.renderAll drawn text).text = (e.renderOnly k drawn text).text ∧
          (e.renderAll drawn text).warnings = (e.renderOnly k drawn text).warnings := by
  intro hclaim
  let image : Image := ⟨"1", "u.jpg", "[countdown]", []⟩
  let e : Engine := { host := { image := fun _ => .ok (some image), token := [] }, ids := .sequential }
  have h : Kind.gallery.grammar "[gallery images=\"1\"]" ⟨"images=\"1\"", []⟩ :=
    (Kind.reads_occurrence .gallery).grammar_of_read (by decide)
  have htext : (e.renderAll [] "[gallery images=\"1\"]").text ≠
      (e.renderOnly .gallery [] "[gallery images=\"1\"]").text := by decide +kernel
  exact htext (hclaim e [] .gallery _ _ rfl (.inr rfl) h).1

end Engine

end Shortcode
