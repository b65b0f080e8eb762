import Shortcode.Engine
import Shortcode.Proofs.Tag.Reading

/-! # Stages

What the stage of one kind makes of a text: gaps are copied, shortcodes are replaced from left to
right, and a stage changes nothing if there is no shortcode. -/

namespace Shortcode

namespace Engine

variable (e : Engine) (k : Kind)

/-- The rendering of a cut text: the gaps stay, and each shortcode is replaced by its expansion,
which is settled after those to the left of it. -/
def renderCut : List Text → Cut Occurrence → Rendering
  | drawn, .last gap => .start drawn gap
  | drawn, .next gap _ o rest =>
    let r := (k.expand e.host o).settle e.host.escape e.ids drawn
    let s := renderCut r.drawn rest
    { text := gap ++ r.text ++ s.text
      warnings := r.warnings ++ s.warnings
      calls := r.calls ++ s.calls
      drawn := s.drawn }

theorem renderSegments_gap_append (drawn : List Text) (gap : Text)
    (segments : List (Segment Occurrence)) :
    e.renderSegments k drawn (gap.map .gap ++ segments) =
      { e.renderSegments k drawn segments with
        text := gap ++ (e.renderSegments k drawn segments).text } := by
  induction gap with
  | nil => rfl
  | cons c gap ih =>
    simp only [List.map_cons, List.cons_append, renderSegments]
    rw [ih]

theorem renderSegments_append_gap (drawn : List Text) (segments : List (Segment Occurrence))
    (gap : Text) :
    e.renderSegments k drawn (segments ++ gap.map .gap) =
      { e.renderSegments k drawn segments with
        text := (e.renderSegments k drawn segments).text ++ gap } := by
  induction segments generalizing drawn with
  | nil =>
    have h := e.renderSegments_gap_append k drawn gap []
    simpa [renderSegments, Rendering.start] using h
  | cons segment segments ih =>
    cases segment with
    | gap c =>
      simp only [List.cons_append, renderSegments]
      rw [ih]
    | hit o =>
      simp only [List.cons_append, renderSegments]
      rw [ih]
      simp only [Rendering.andThen, List.append_assoc]

theorem renderSegments_segments (drawn : List Text) (cut : Cut Occurrence) :
    e.renderSegments k drawn cut.segments = e.renderCut k drawn cut := by
  induction cut generalizing drawn with
  | last gap =>
    have h := e.renderSegments_gap_append k drawn gap []
    simpa [Cut.segments, renderCut, renderSegments, Rendering.start] using h
  | next gap part o rest ih =>
    rw [Cut.segments, renderSegments_gap_append]
    simp only [renderSegments, renderCut]
    rw [ih]
    simp only [Rendering.andThen, List.append_assoc]

theorem any_isSome_gap (gap : Text) :
    (gap.map (Segment.gap (α := Occurrence))).any (·.value?.isSome) = false := by
  simp [Segment.value?]

theorem any_isSome_segments (cut : Cut Occurrence) :
    cut.segments.any (·.value?.isSome) = true ↔ cut.values ≠ [] := by
  cases cut with
  | last gap => simp only [Cut.segments, Cut.values, any_isSome_gap]; simp
  | next gap part o rest => simp [Cut.segments, Cut.values, Segment.value?]

/-- A stage renders the leftmost cut of a text. -/
theorem stage?_eq_renderCut {text : Text} {cut : Cut Occurrence}
    (h : cut.IsLeftmostOf k.grammar text) (drawn : List Text) :
    e.stage? k drawn text =
      if cut.values = [] then none else some (e.renderCut k drawn cut) := by
  obtain ⟨rfl, hcut⟩ := h
  have hsegments := hcut.segments_text k.reads_occurrence
  have hany := any_isSome_segments cut
  simp only [stage?, hsegments, renderSegments_segments]
  by_cases hvalues : cut.values = []
  · rw [if_pos hvalues, if_neg (fun hsome => hany.mp hsome hvalues)]
  · rw [if_neg hvalues, if_pos (hany.mpr hvalues)]

/-! ### What a stage reads

The switches choose the stages; a stage does not read them. It reads the host and the source of IDs only
through the expansions that it settles. -/

variable {e k} in
theorem renderSegments_congr {e' : Engine}
    (h : ∀ drawn o, (k.expand e'.host o).settle e'.host.escape e'.ids drawn =
      (k.expand e.host o).settle e.host.escape e.ids drawn)
    (drawn : List Text) (segments : List (Segment Occurrence)) :
    e'.renderSegments k drawn segments = e.renderSegments k drawn segments := by
  induction segments generalizing drawn with
  | nil => rfl
  | cons segment segments ih =>
    cases segment with
    | gap c => simp only [renderSegments, ih]
    | hit o => simp only [renderSegments, h, ih]

variable {e k} in
theorem advance_congr {e' : Engine}
    (h : ∀ drawn o, (k.expand e'.host o).settle e'.host.escape e'.ids drawn =
      (k.expand e.host o).settle e.host.escape e.ids drawn)
    (r : Rendering) : e'.advance r k = e.advance r k := by
  simp only [advance, stage?, renderSegments_congr h]

theorem advance_switches (s : Switches) : { e with switches := s }.advance = e.advance := by
  funext r k
  refine advance_congr ?_ r
  exact fun _ _ => rfl

end Engine

namespace Rendering

/-- A rendering with text before and behind it. -/
def surround (p s : Text) (r : Rendering) : Rendering :=
  { r with text := p ++ (r.text ++ s) }

end Rendering

namespace Engine

/-- A stage keeps what surrounds a text if a scan passes over it. -/
theorem stage?_surround (e : Engine) (k : Kind) {p t s : Text}
    (h : Scan.segments k.occurrence? (p ++ (t ++ s)) =
      p.map .gap ++ (Scan.segments k.occurrence? t ++ s.map .gap)) (drawn : List Text) :
    e.stage? k drawn (p ++ (t ++ s)) = (e.stage? k drawn t).map (.surround p s) := by
  simp only [stage?, h, List.any_append, any_isSome_gap, Bool.false_or, Bool.or_false,
    renderSegments_gap_append, renderSegments_append_gap]
  split <;> rfl

end Engine

end Shortcode
