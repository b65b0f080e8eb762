import Shortcode.Proofs.Engine.Replacements
import Shortcode.Proofs.Naming.Expansions
import Shortcode.Proofs.Naming.Sources

/-! # Interchangeable sources of IDs

Two runs that differ in the source of their IDs only go in lockstep: they find the same shortcodes
in each stage, draw for the same stems and give the same warnings and calls. Their texts are woven,
so one pattern describes both. What holds with numbered IDs therefore holds with random ones. -/

namespace Shortcode

/-- Renderings with woven texts that agree in everything else. For the draws of a rendering, `names`
tells which IDs stand for each other. -/
structure Rendering.Alike (names : List Text → Text → Text → Prop) (r r' : Rendering) : Prop where
  text : Woven (names r.drawn) r.text r'.text
  warnings : r'.warnings = r.warnings
  calls : r'.calls = r.calls
  drawn : r'.drawn = r.drawn

theorem Rendering.Alike.andThen {names : List Text → Text → Text → Prop} {r r' s s' : Rendering}
    (hr : r.Alike names r') (hs : s.Alike names s') :
    (r.andThen s).Alike names (r'.andThen s') where
  text := hs.text
  warnings := by simp only [Rendering.andThen, hr.warnings, hs.warnings]
  calls := by simp only [Rendering.andThen, hr.calls, hs.calls]
  drawn := hs.drawn

/-- Settled expansions that agree up to woven bodies. The ID of a widget is drawn in both. -/
theorem Kind.settle_alike {ids ids' : Ids} {base drawn : List Text} (hbase : base <:+ drawn)
    (escape : Text → Text) {k : Kind} {h : Host} {o : Occurrence} {x' : Expansion}
    (hx : (k.expand h o).Alike (ids.Counterparts ids' base drawn) x') :
    ((k.expand h o).settle escape ids drawn).Alike (ids.Counterparts ids' base)
      (x'.settle escape ids' drawn) := by
  have htidy := k.isTidy_expand h o
  have hstem : ∀ stem, (k.expand h o).stem? = some stem → stem = k.stem := fun _ =>
    Kind.stem?_expand
  generalize k.expand h o = x at hx htidy hstem
  cases hx with
  | warning w => exact ⟨.refl _, rfl, rfl, rfl⟩
  | plain markup => exact ⟨.refl _, rfl, rfl, rfl⟩
  | widget stem calls hmarkup =>
    obtain rfl := hstem stem rfl
    have hname : ids.Counterparts ids' base (k.stem :: drawn) (ids.next drawn k.stem)
        (ids'.next drawn k.stem) := ⟨k, drawn, hbase, List.suffix_refl _, rfl, rfl⟩
    have hfit := (Markup.Template.isTidy_iff.mp htidy).2
    have hgrown := hmarkup.mono (Ids.Counterparts.mono (List.suffix_cons k.stem drawn))
    exact ⟨hgrown.woven_fill hfit hname escape, rfl, rfl, rfl⟩

theorem Scan.Alike.any_isSome {names : Text → Text → Prop} {R : Occurrence → Occurrence → Prop}
    {segments segments' : List (Segment Occurrence)} (h : Scan.Alike names R segments segments') :
    segments'.any (·.value?.isSome) = segments.any (·.value?.isSome) := by
  induction h with
  | nil => rfl
  | gap _ _ ih => simp only [List.any_append, Engine.any_isSome_gap, ih]
  | hit => rfl

namespace Engine

variable (e : Engine)

/-- Buttons and alerts draw no ID, so it does not matter where IDs come from. -/
theorem advance_ids (ids' : Ids) {k : Kind} (hk : k.hasWidgets = false) (r : Rendering) :
    { e with ids := ids' }.advance r k = e.advance r k := by
  refine advance_congr ?_ r
  intro drawn o
  cases k with
  | button => rfl
  | alert => rfl
  | _ => cases hk

section Plain

variable {ids' : Ids} (hids : e.ids.IsPlain) (hids' : ids'.IsPlain) {base : List Text}

include hids hids'

/-- Segments that are alike are rendered alike, whatever was drawn since they were scanned. -/
theorem renderSegments_alike {k : Kind} (hk : k.hasWidgets = true) {scanned : List Text}
    {segments segments' : List (Segment Occurrence)}
    (h : Scan.Alike (e.ids.Counterparts ids' base scanned)
      (Occurrence.Alike (e.ids.Counterparts ids' base scanned)) segments segments')
    {drawn : List Text} (hbase : base <:+ drawn) (hscanned : scanned <:+ drawn) :
    (e.renderSegments k drawn segments).Alike (e.ids.Counterparts ids' base)
      ({ e with ids := ids' }.renderSegments k drawn segments') := by
  induction h generalizing drawn with
  | nil => exact ⟨.nil, rfl, rfl, rfl⟩
  | @gap x y s s' hgap _ ih =>
    obtain ⟨htext, hwarnings, hcalls, hdrawn⟩ := ih hbase hscanned
    have hgrown := hscanned.trans (e.renderSegments_follows k drawn s).suffix
    rw [renderSegments_gap_append, renderSegments_gap_append]
    exact ⟨(hgap.mono (Ids.Counterparts.mono hgrown)).append htext, hwarnings, hcalls, hdrawn⟩
  | @hit o o' s s' ho _ ih =>
    -- The IDs in what was scanned are among those drawn by now.
    have ho' : o.Alike (e.ids.Counterparts ids' base drawn) o' :=
      ⟨ho.1.mono (Ids.Counterparts.mono hscanned), ho.2.mono (Ids.Counterparts.mono hscanned)⟩
    have hplain := Ids.plainNames_counterparts hids hids' base drawn
    have hr := Kind.settle_alike hbase e.host.escape (k.expand_alike hplain hk e.host ho')
    simp only [renderSegments]
    rw [hr.drawn]
    generalize hsettled : (k.expand e.host o).settle e.host.escape e.ids drawn = r at hr
    generalize (k.expand e.host o').settle e.host.escape ids' drawn = r' at hr
    have hgrows : drawn <:+ r.drawn := by
      rw [← hsettled, Expansion.settle_drawn]
      exact List.suffix_append _ _
    have hs := ih (hbase.trans hgrows) (hscanned.trans hgrows)
    have hboth := hr.andThen hs
    have hrest := (e.renderSegments_follows k r.drawn s).suffix
    exact ⟨(hr.text.mono (Ids.Counterparts.mono hrest)).append hs.text, hboth.warnings, hboth.calls,
      hboth.drawn⟩

theorem advance_alike {k : Kind} (hk : k.hasWidgets = true) {r r' : Rendering}
    (hbase : base <:+ r.drawn) (h : r.Alike (e.ids.Counterparts ids' base) r') :
    (e.advance r k).Alike (e.ids.Counterparts ids' base) ({ e with ids := ids' }.advance r' k) := by
  have hplain := Ids.plainNames_counterparts hids hids' base r.drawn
  have hsegments := k.segments_alike hplain h.text
  simp only [advance, stage?, hsegments.any_isSome, h.drawn]
  by_cases hany : (Scan.segments k.occurrence? r.text).any (·.value?.isSome) = true
  · simp only [if_pos hany]
    exact h.andThen (e.renderSegments_alike hids hids' hk hsegments hbase (List.suffix_refl _))
  · simp only [if_neg hany]
    exact h

theorem foldl_advance_alike {kinds : List Kind} (hkinds : ∀ k ∈ kinds, k.hasWidgets = true)
    {r r' : Rendering} (hbase : base <:+ r.drawn) (h : r.Alike (e.ids.Counterparts ids' base) r') :
    (kinds.foldl e.advance r).Alike (e.ids.Counterparts ids' base)
      (kinds.foldl { e with ids := ids' }.advance r') := by
  induction kinds generalizing r r' with
  | nil => exact h
  | cons k kinds ih =>
    obtain ⟨hk, hrest⟩ := List.forall_mem_cons.mp hkinds
    exact ih hrest (hbase.trans (e.advance_follows r k).suffix)
      (e.advance_alike hids hids' hk hbase h)

/-- Renderings of one text are alike. Before the kinds that draw IDs, both runs have the same
text. -/
theorem render_alike (drawn : List Text) (text : Text) :
    (e.render drawn text).Alike (e.ids.Counterparts ids' drawn)
      ({ e with ids := ids' }.render drawn text) := by
  have hsplit : e.switches.enabled = [Kind.button, .alert].filter e.switches.isOn ++
      [Kind.gallery, .tabs, .accordion, .countdown, .contactForm].filter e.switches.isOn :=
    List.filter_append [Kind.button, .alert] _
  have hwithout : ∀ k ∈ [Kind.button, .alert], k.hasWidgets = false := by decide
  have hwith : ∀ k ∈ [Kind.gallery, .tabs, .accordion, .countdown, .contactForm],
      k.hasWidgets = true := by decide
  have hsame : ∀ kinds : List Kind, (∀ k ∈ kinds, k.hasWidgets = false) → ∀ r,
      kinds.foldl { e with ids := ids' }.advance r = kinds.foldl e.advance r := by
    intro kinds hkinds
    induction kinds with
    | nil => exact fun _ => rfl
    | cons k kinds ih =>
      intro r
      obtain ⟨hk, hrest⟩ := List.forall_mem_cons.mp hkinds
      rw [List.foldl_cons, List.foldl_cons, e.advance_ids ids' hk, ih hrest]
  simp only [render, hsplit, List.foldl_append]
  -- The kinds without widgets draw nothing, so what they leave is one text for both runs.
  rw [hsame _ fun k hk => hwithout k (List.mem_of_mem_filter hk)]
  refine e.foldl_advance_alike hids hids' (fun k hk => hwith k (List.mem_of_mem_filter hk)) ?_
    ⟨.refl _, rfl, rfl, rfl⟩
  exact (e.replacementsFrom_follows (.start drawn text) _).suffix

end Plain

/-- With any two sources of plain IDs, rendering a text gives the same warnings, makes the same
calls and draws IDs for the same stems, and the texts are one pattern whose holes are filled with
the IDs that each source gives for these draws. -/
theorem render_ids_interchangeable (hids : e.ids.IsPlain) {ids' : Ids}
    (hids' : ids'.IsPlain) (drawn : List Text) (text : Text) :
    let r := e.render drawn text
    let r' := { e with ids := ids' }.render drawn text
    r'.warnings = r.warnings ∧ r'.calls = r.calls ∧
      ∃ (stems : List Text) (pattern : Pattern), r.drawn = stems.reverse ++ drawn ∧
        r'.drawn = stems.reverse ++ drawn ∧ pattern.FitsIn stems.length ∧
        r.text = pattern.fill (e.ids.drawAll drawn stems) ∧
        r'.text = pattern.fill (ids'.drawAll drawn stems) := by
  intro r r'
  have halike : r.Alike (e.ids.Counterparts ids' drawn) r' := e.render_alike hids hids' drawn text
  obtain ⟨later, hlater⟩ : drawn <:+ r.drawn :=
    (e.replacementsFrom_follows (.start drawn text) e.switches.enabled).suffix
  have hdrawn : r.drawn = later.reverse.reverse ++ drawn := by rw [List.reverse_reverse, hlater]
  have hwoven := halike.text
  rw [hdrawn] at hwoven
  obtain ⟨pattern, hfits, htext, htext'⟩ := hwoven.exists_pattern
  exact ⟨halike.warnings, halike.calls, later.reverse, pattern, hdrawn, halike.drawn.trans hdrawn,
    hfits, htext, htext'⟩

/-- The ID of a gallery stands among the attributes of an accordion when these are read. -/
theorem render_gallery_in_attributes_interchangeable :
    let e : Engine := { host := { token := [] }, ids := .sequential }
    let ids' : Ids := .random (Entropy.stream 1 2)
    let text : Text :=
      "[accordion class=\"[gallery images=\"1\"]\"][item title=\"a\"]b[/item][/accordion]"
    let r := e.render [] text
    let r' := { e with ids := ids' }.render [] text
    e.ids.IsPlain ∧ ids'.IsPlain ∧ r'.warnings = r.warnings ∧ r'.calls = r.calls ∧
      ∃ (stems : List Text) (pattern : Pattern), r.drawn = stems.reverse ++ [] ∧
        r'.drawn = stems.reverse ++ [] ∧ pattern.FitsIn stems.length ∧
        r.text = pattern.fill (e.ids.drawAll [] stems) ∧
        r'.text = pattern.fill (ids'.drawAll [] stems) := by
  intro e ids' text r r'
  have hids : e.ids.IsPlain := Ids.isPlain_sequential
  have hids' : ids'.IsPlain := Ids.isPlain_random (Entropy.stream 1 2)
  -- Otherwise checking the proof would render the text.
  clear_value text
  exact ⟨hids, hids', e.render_ids_interchangeable hids hids' [] text⟩

end Engine

end Shortcode
