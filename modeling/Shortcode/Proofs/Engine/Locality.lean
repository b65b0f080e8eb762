import Shortcode.Proofs.Engine.Stage

/-! # Locality

Text in front of which no shortcode can start and text behind which none can end are copied by
every stage, so a whole rendering only depends on what stands between them. -/

namespace Shortcode

namespace Bracketed

variable {part : Text}

/-- A bracketed text does not start in a text without opening brackets. -/
theorem not_start {inside after rest : Text} (h : Bracketed part) (hinside : '[' ∉ inside)
    (hne : inside ≠ []) : inside ++ after ≠ part ++ rest := by
  intro htext
  obtain ⟨inner, rfl⟩ := h
  obtain ⟨c, inside, rfl⟩ := List.exists_cons_of_ne_nil hne
  rw [List.cons_append, List.cons_append] at htext
  obtain ⟨rfl, -⟩ := List.cons.inj htext
  exact hinside (List.mem_cons_self ..)

/-- A bracketed text does not end in a text without closing brackets. -/
theorem length_le {text after before rest : Text} (h : Bracketed part) (hafter : ']' ∉ after)
    (htext : text ++ after = before ++ (part ++ rest)) :
    before.length + part.length ≤ text.length := by
  obtain ⟨inner, rfl⟩ := h
  have hsplit : text ++ after = (before ++ '[' :: inner) ++ (']' :: rest) := by
    rw [htext]
    simp
  rcases List.append_eq_append_iff.mp hsplit with ⟨z, -, rfl⟩ | ⟨z, hfront, hz⟩
  · simp at hafter
  · cases z with
    | nil =>
      rw [List.nil_append] at hz
      rw [← hz] at hafter
      simp at hafter
    | cons c z =>
      rw [hfront]
      simp only [List.length_append, List.length_cons, List.length_nil]
      omega

end Bracketed

/-- No shortcode starts inside a text without opening brackets. -/
theorem Kind.clear_of_not_mem (k : Kind) {gap : Text} (h : '[' ∉ gap) (after : Text) :
    Cut.Clear k.grammar gap after := by
  intro before inside part rest o hgap hne htext hpart
  have hinside : '[' ∉ inside := fun hmem => h (hgap ▸ List.mem_append_right before hmem)
  exact (k.bracketed_of_grammar hpart).not_start hinside hne htext

namespace Engine

variable (e : Engine) {p s : Text}

theorem segments_surround (k : Kind) (hp : '[' ∉ p) (hs : ']' ∉ s) (t : Text) :
    Scan.segments k.occurrence? (p ++ (t ++ s)) =
      p.map .gap ++ (Scan.segments k.occurrence? t ++ s.map .gap) := by
  have hclear := k.clear_of_not_mem hp (t ++ s)
  have hends : ∀ before part rest o, t ++ s = before ++ (part ++ rest) → k.grammar part o →
      before.length + part.length ≤ t.length := by
    intro before part rest o htext hpart
    exact (k.bracketed_of_grammar hpart).length_le hs htext
  rw [hclear.segments_append k.reads_occurrence, Cut.segments_append k.reads_occurrence hends]

theorem advance_surround (hp : '[' ∉ p) (hs : ']' ∉ s) (r : Rendering) (k : Kind) :
    e.advance (r.surround p s) k = (e.advance r k).surround p s := by
  have hstage := e.stage?_surround k (segments_surround k hp hs r.text) r.drawn
  simp only [advance, Rendering.surround, hstage]
  cases e.stage? k r.drawn r.text <;> rfl

theorem foldl_advance_surround (hp : '[' ∉ p) (hs : ']' ∉ s) (kinds : List Kind) (r : Rendering) :
    kinds.foldl e.advance (r.surround p s) = (kinds.foldl e.advance r).surround p s := by
  induction kinds generalizing r with
  | nil => rfl
  | cons k kinds ih => rw [List.foldl_cons, List.foldl_cons, e.advance_surround hp hs, ih]

/-- The rendering of a text does not depend on text without opening brackets in front of it or on
text without closing brackets behind it: both are copied, and the warnings, the calls and the IDs
are the same. -/
theorem render_surrounded (drawn : List Text) (hp : '[' ∉ p) (hs : ']' ∉ s) (t : Text) :
    e.render drawn (p ++ t ++ s) =
      { e.render drawn t with text := p ++ (e.render drawn t).text ++ s } := by
  have hfold := e.foldl_advance_surround hp hs e.switches.enabled (.start drawn t)
  rw [List.append_assoc, List.append_assoc]
  exact hfold

/-- Brackets that face away from a button do not matter. -/
theorem render_button_surrounded :
    let e : Engine := { host := { token := [] }, ids := .sequential }
    '[' ∉ ("x] " : Text) ∧ ']' ∉ (" [y" : Text) ∧
      e.render [] ("x] " ++ "[button]Go[/button]" ++ " [y") =
        { e.render [] "[button]Go[/button]" with
          text := "x] " ++ (e.render [] "[button]Go[/button]").text ++ " [y" } := by
  intro e
  have hp : '[' ∉ ("x] " : Text) := by decide
  have hs : ']' ∉ (" [y" : Text) := by decide
  exact ⟨hp, hs, e.render_surrounded [] hp hs "[button]Go[/button]"⟩

end Engine

end Shortcode
