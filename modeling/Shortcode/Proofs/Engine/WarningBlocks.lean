import Shortcode.Proofs.Engine.Change
import Shortcode.Proofs.Expansion.WarningBlocks

/-! # Warning blocks in renderings

A rendering reports every warning block that it shows. A stage copies gaps, which end in front of the
tags of the expansions, so it cannot put the tag of a warning block together from the text and the
markup; and what it passes through of a body stands in the text that it receives. -/

namespace Shortcode

open Markup

namespace Engine

variable {e : Engine} (hescape : e.host.escape = escape) (hids : e.ids = .sequential) {k : Kind}

include hescape hids in
theorem placesOf_renderCut_le {cut : Cut Occurrence} (h : cut.IsLeftmost k.grammar)
    (drawn : List Text) :
    Text.placesOf Warning.opening (e.renderCut k drawn cut).text ≤
      Text.placesOf Warning.opening cut.text + (e.renderCut k drawn cut).warnings.length := by
  induction cut generalizing drawn with
  | last gap => exact Nat.le_add_right ..
  | next gap part o rest ih =>
    obtain ⟨-, hpart, hrest⟩ := h
    let r := (k.expand e.host o).settle e.host.escape e.ids drawn
    let s := e.renderCut k r.drawn rest
    have htext : (e.renderCut k drawn (.next gap part o rest)).text = gap ++ (r.text ++ s.text) :=
      List.append_assoc ..
    have hwarnings : (e.renderCut k drawn (.next gap part o rest)).warnings.length =
        r.warnings.length + s.warnings.length := List.length_append
    -- The expansion begins with a bracket, so no tag lies across the end of the gap.
    have hgap : Text.placesOf Warning.opening (gap ++ (r.text ++ s.text)) =
        Text.placesOf Warning.opening gap + Text.placesOf Warning.opening (r.text ++ s.text) := by
      obtain ⟨word, hopening, hword⟩ := Warning.opening_eq_cons
      obtain ⟨tail, htail⟩ := k.expand_text_eq_cons e.host e.host.escape e.ids drawn o
      rw [hopening, htail]
      exact Text.placesOf_append_cons hword gap _
    have hsettle : Text.placesOf Warning.opening (r.text ++ s.text) ≤
        Text.placesOf Warning.opening part + r.warnings.length +
          Text.placesOf Warning.opening s.text := by
      simp only [r, hescape, hids]
      exact Kind.placesOf_settle_le hpart e.host drawn s.text
    have hbehind : Text.placesOf Warning.opening s.text ≤
        Text.placesOf Warning.opening rest.text + s.warnings.length := ih hrest r.drawn
    have hfront := Text.placesOf_add_le Warning.opening gap part
    have hback := Text.placesOf_add_le Warning.opening (gap ++ part) rest.text
    rw [htext, hwarnings, Cut.text]
    omega

include hescape hids in
/-- A stage adds as many warnings as it adds tags of warning blocks, or more. -/
theorem placesOf_advance_le (r : Rendering) (k : Kind) :
    Text.placesOf Warning.opening (e.advance r k).text + r.warnings.length ≤
      Text.placesOf Warning.opening r.text + (e.advance r k).warnings.length := by
  by_cases hoccurs : k.grammar.OccursIn r.text
  · obtain ⟨cut, hcut⟩ := Cut.exists_isLeftmostOf k.reads_occurrence r.text
    have hvalues := (hcut.values_ne_nil_iff k.reads_occurrence).mpr hoccurs
    have hstage := placesOf_renderCut_le hescape hids hcut.2 r.drawn
    rw [hcut.1] at hstage
    rw [advance, e.stage?_eq_renderCut k hcut, if_neg hvalues]
    simp only [Rendering.andThen, List.length_append]
    omega
  · exact Nat.le_of_eq (by rw [e.advance_eq_self hoccurs])

include hescape hids in
theorem placesOf_foldl_advance_le (kinds : List Kind) (r : Rendering) :
    Text.placesOf Warning.opening (kinds.foldl e.advance r).text + r.warnings.length ≤
      Text.placesOf Warning.opening r.text + (kinds.foldl e.advance r).warnings.length := by
  induction kinds generalizing r with
  | nil => exact Nat.le_refl _
  | cons k kinds ih =>
    have hstage := placesOf_advance_le hescape hids r k
    have hrest := ih (e.advance r k)
    rw [List.foldl_cons]
    omega

/-- A text without warning blocks has at most as many of them in its rendering as the rendering has
warnings. -/
theorem placesOf_render_le_warnings (hescape : e.host.escape = escape) (hids : e.ids = .sequential)
    {text : Text} (h : ¬ Warning.opening <:+: text) (drawn : List Text) :
    Text.placesOf Warning.opening (e.render drawn text).text ≤
      (e.render drawn text).warnings.length := by
  obtain ⟨word, hopening, -⟩ := Warning.opening_eq_cons
  rw [hopening] at h
  have hnone := Text.placesOf_eq_zero_iff.mpr h
  rw [← hopening] at hnone
  have hrender := placesOf_foldl_advance_le hescape hids e.switches.enabled (.start drawn text)
  have hstart : Text.placesOf Warning.opening (Rendering.start drawn text).text = 0 := hnone
  rw [hstart, Nat.zero_add] at hrender
  exact Nat.le_trans (Nat.le_add_right ..) hrender

/-- An alert that is styled as a warning is not taken for a block of the engine. -/
theorem placesOf_render_warning_alert :
    let e : Engine := { host := { token := [] }, ids := .sequential }
    let text : Text := "[alert type=\"warning\" dismissible=\"false\"]x[/alert][gallery]"
    ¬ Warning.opening <:+: text ∧
      Text.placesOf Warning.opening (e.render [] text).text ≤ (e.render [] text).warnings.length := by
  intro e text
  have h : ¬ Warning.opening <:+: text := by
    obtain ⟨word, hopening, -⟩ := Warning.opening_eq_cons
    rw [hopening]
    intro hinfix
    have hmem : '<' ∈ text := hinfix.subset (List.mem_cons_self ..)
    exact absurd hmem (by decide)
  exact ⟨h, placesOf_render_le_warnings rfl rfl h []⟩

end Engine

end Shortcode
