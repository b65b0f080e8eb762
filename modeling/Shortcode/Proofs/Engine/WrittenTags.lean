import Shortcode.Proofs.Engine.Rescan
import Shortcode.Proofs.Tag.Written

/-! # Renderings of written tags

A tag whose values hold neither quotes nor closing brackets is replaced as a whole, and its expansion
has these values. A closing bracket ends the tag, and what is left of the value then stands in the body
or in the text. -/

namespace Shortcode

namespace Engine

variable (e : Engine) {k : Kind}

/-- A shortcode is replaced where a scan comes to it, and the scan goes on behind it. -/
theorem renderOnly_append {part : Text} {o : Occurrence} (hpart : k.grammar part o)
    (drawn : List Text) {before after : Text} (hbefore : Cut.Clear k.grammar before (part ++ after)) :
    let x := (k.expand e.host o).settle e.host.escape e.ids drawn
    let behind := e.renderOnly k x.drawn after
    e.renderOnly k drawn (before ++ (part ++ after)) =
      { text := before ++ (x.text ++ behind.text)
        warnings := x.warnings ++ behind.warnings
        calls := x.calls ++ behind.calls
        drawn := behind.drawn } := by
  intro x behind
  obtain ⟨cut, hcut⟩ := Cut.exists_isLeftmostOf k.reads_occurrence after
  have hbehind : behind = e.renderCut k x.drawn cut := e.renderOnly_eq_renderCut hcut x.drawn
  have hwhole : (Cut.next before part o cut).IsLeftmostOf k.grammar (before ++ (part ++ after)) := by
    refine ⟨?_, ?_, hpart, hcut.2⟩
    · rw [Cut.text, hcut.1, List.append_assoc]
    · rw [hcut.1]
      exact hbefore
  rw [e.renderOnly_eq_renderCut hwhole, hbehind, ← List.append_assoc]
  rfl

/-- Text in which no shortcode starts is copied. -/
theorem renderOnly_append_of_clear (drawn : List Text) {gap after : Text} (h : Cut.Clear k.grammar gap after) :
    e.renderOnly k drawn (gap ++ after) =
      { e.renderOnly k drawn after with text := gap ++ (e.renderOnly k drawn after).text } := by
  have hsegments := h.segments_append k.reads_occurrence
  have hstage := e.stage?_surround k (p := gap) (t := after) (s := [])
    (by simpa using hsegments) drawn
  rw [List.append_nil] at hstage
  simp only [renderOnly_eq_advance, advance, Rendering.start, hstage]
  cases e.stage? k drawn after <;> simp [Rendering.surround, Rendering.andThen]

/-- A tag with pairs of different names is replaced together with its body and closing tag, wherever a
scan comes to it, by an expansion with exactly these values; nothing of them goes into the body or the
text around it. The values hold neither quotes nor closing brackets. -/
theorem written_values_reach_expansion (drawn : List Text) {word : Text}
    (hword : Spells k.name word) {pairs : List (Text × Text)}
    (hpairs : ∀ pair ∈ pairs, Attributes.IsPair pair ∧ ']' ∉ pair.2)
    (hnames : (pairs.map Prod.fst).Nodup) {body tail : Text} (htail : k.Completes body tail) :
    let part := Tag.write word pairs ++ tail
    ∃ o : Occurrence, o.body = body ∧ Attributes.parse o.raw = ⟨pairs⟩ ∧
      (∀ name value, (Attributes.parse o.raw).get? name = some value ↔ (name, value) ∈ pairs) ∧
      (∀ keyword child, k.shape = .container keyword → Child.grammar keyword body child →
        o.children keyword = [child]) ∧
      let x := (k.expand e.host o).settle e.host.escape e.ids drawn
      e.renderOnly k drawn part = x ∧
      ∀ before after, Cut.Clear k.grammar before (part ++ after) →
        let behind := e.renderOnly k x.drawn after
        e.renderOnly k drawn (before ++ (part ++ after)) =
          { text := before ++ (x.text ++ behind.text)
            warnings := x.warnings ++ behind.warnings
            calls := x.calls ++ behind.calls
            drawn := behind.drawn } := by
  intro part
  have htag := Tag.opens_write hword hpairs
  have hpart := Kind.grammar_of_completes htag htail
  have hparse := Attributes.parse_writeAll fun pair hpair => (hpairs pair hpair).1
  refine ⟨⟨Attributes.writeAll pairs, body⟩, rfl, hparse, ?_, ?_, ?_, ?_⟩
  · intro name value
    rw [hparse]
    exact Attributes.get?_eq_some_iff hnames
  · intro keyword child hshape hchild
    exact Occurrence.children_eq_singleton (Kind.opening_not_mem_child hshape) hchild
  · exact e.renderOnly_of_grammar drawn hpart
  · intro before after hbefore
    exact e.renderOnly_append hpart drawn hbefore

/-- An opening bracket in a value stays in the link of a button. -/
theorem written_opening_bracket_reaches_link :
    let e : Engine := { host := { token := [] }, ids := .sequential }
    let pairs : List (Text × Text) := [("url", "/s?f[=1"), ("target", "_blank")]
    Spells Kind.button.name "Button" ∧ (∀ pair ∈ pairs, Attributes.IsPair pair ∧ ']' ∉ pair.2) ∧
      (pairs.map Prod.fst).Nodup ∧ Kind.button.Completes "Go" "Go[/button]" ∧
      ∃ o : Occurrence, o.body = "Go" ∧ Attributes.parse o.raw = ⟨pairs⟩ ∧
        e.renderOnly .button [] "[Button url=\"/s?f[=1\" target=\"_blank\"]Go[/button]" =
          (Kind.button.expand e.host o).settle e.host.escape e.ids [] := by
  intro e pairs
  have hword : Spells Kind.button.name "Button" := rfl
  have hpairs : ∀ pair ∈ pairs, Attributes.IsPair pair ∧ ']' ∉ pair.2 := by decide
  have hnames : (pairs.map Prod.fst).Nodup := by decide
  have htail : Kind.button.Completes "Go" "Go[/button]" :=
    Tag.reads_bracketFree.grammar_of_read (by decide)
  obtain ⟨o, hbody, hparse, -, -, hrender, -⟩ :=
    e.written_values_reach_expansion [] hword hpairs hnames htail
  exact ⟨hword, hpairs, hnames, htail, o, hbody, hparse, hrender⟩

/-- A closing bracket in the link of a button ends the tag. The attribute is lost, and the rest of its
value goes into the label. -/
theorem written_closing_bracket_ends_tag :
    ¬ ∀ (e : Engine) (drawn : List Text) (k : Kind) (word : Text) (pairs : List (Text × Text))
        (body tail : Text), Spells k.name word → (∀ pair ∈ pairs, Attributes.IsPair pair) →
      (pairs.map Prod.fst).Nodup → k.Completes body tail →
        ∃ o : Occurrence, o.body = body ∧ Attributes.parse o.raw = ⟨pairs⟩ ∧
          e.renderOnly k drawn (Tag.write word pairs ++ tail) =
            (k.expand e.host o).settle e.host.escape e.ids drawn := by
  intro hclaim
  let e : Engine := { host := { token := [] }, ids := .sequential }
  let pairs : List (Text × Text) := [("url", "/s?f[]=1")]
  have htail : Kind.button.Completes "Go" "Go[/button]" :=
    Tag.reads_bracketFree.grammar_of_read (by decide)
  obtain ⟨o, hbody, hparse, hrender⟩ :=
    hclaim e [] .button "button" pairs "Go" "Go[/button]" rfl (by decide) (by decide) htail
  have htext := congrArg Rendering.text hrender
  simp only [Kind.expand, Expansion.button, hparse, hbody] at htext
  exact absurd htext (by decide +kernel)

end Engine

end Shortcode
