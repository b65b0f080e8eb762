import Shortcode.Proofs.Engine.Change
import Shortcode.Proofs.Engine.Replacements

/-! # Texts that come back

A rendering gives back the text that it received if and only if no shortcode of an enabled kind
stands in it. Nothing is asked of the host then, and nothing is replaced. -/

namespace Shortcode

theorem Switches.mem_enabled {s : Switches} {k : Kind} : k ∈ s.enabled ↔ s.isOn k = true := by
  rw [enabled, List.mem_filter]
  exact and_iff_right k.mem_pipeline

namespace Engine

variable (e : Engine)

theorem stage?_ne_none_iff (k : Kind) (drawn : List Text) (text : Text) :
    e.stage? k drawn text ≠ none ↔ k.grammar.OccursIn text := by
  obtain ⟨cut, hcut⟩ := Cut.exists_isLeftmostOf k.reads_occurrence text
  rw [e.stage?_eq_renderCut k hcut, ← hcut.values_ne_nil_iff k.reads_occurrence]
  by_cases hvalues : cut.values = []
  · simp [hvalues]
  · simp [hvalues]

theorem hits_eq_nil {k : Kind} {text : Text} (h : ¬ k.grammar.OccursIn text) :
    Scan.hits k.occurrence? text = [] := by
  obtain ⟨cut, hcut⟩ := Cut.exists_isLeftmostOf k.reads_occurrence text
  rw [hcut.hits_eq_values k.reads_occurrence]
  exact hcut.values_eq_nil k.reads_occurrence h

theorem replacementsFrom_eq_nil {kinds : List Kind} {r : Rendering}
    (h : ∀ k ∈ kinds, ¬ k.grammar.OccursIn r.text) : e.replacementsFrom r kinds = [] := by
  induction kinds with
  | nil => rfl
  | cons k kinds ih =>
    have hk := h k (List.mem_cons_self ..)
    have hrest := ih fun l hl => h l (List.mem_cons_of_mem k hl)
    rw [replacementsFrom, hits_eq_nil hk, e.advance_eq_self hk, hrest]
    rfl

theorem render_eq_start {text : Text} (drawn : List Text)
    (h : ∀ k, e.switches.isOn k = true → ¬ k.grammar.OccursIn text) :
    e.render drawn text = .start drawn text :=
  e.foldl_advance_eq_self fun k hk => h k (Switches.mem_enabled.mp hk)

theorem render_text_ne {k : Kind} {text : Text} (drawn : List Text)
    (hk : e.switches.isOn k = true) (h : k.grammar.OccursIn text) :
    (e.render drawn text).text ≠ text := by
  have hchange := e.foldl_advance_rewritten (r := .start drawn text)
    ⟨k, Switches.mem_enabled.mpr hk, h⟩
  exact hchange.ne

/-- A rendering keeps a text if and only if no shortcode of an enabled kind stands in it. It then
replaces nothing, warns of nothing, asks nothing and draws no ID. If the stage of a kind replaces
something, the text that it received does not come back from any later stage. -/
theorem render_text_eq_self_iff (e : Engine) (drawn : List Text) (text : Text) :
    ((e.render drawn text).text = text ↔
      ∀ k, e.switches.isOn k = true → ¬ k.grammar.OccursIn text) ∧
    ((∀ k, e.switches.isOn k = true → ¬ k.grammar.OccursIn text) →
      e.render drawn text = { text, warnings := [], calls := [], drawn } ∧
        e.replacements drawn text = []) ∧
    ∀ earlier k later,
      let received := earlier.foldl e.advance (.start drawn text)
      e.stage? k received.drawn received.text ≠ none →
        ((earlier ++ k :: later).foldl e.advance (.start drawn text)).text ≠ received.text := by
  have hnone : (∀ k, e.switches.isOn k = true → ¬ k.grammar.OccursIn text) →
      ∀ k ∈ e.switches.enabled, ¬ k.grammar.OccursIn (Rendering.start drawn text).text :=
    fun h k hk => h k (Switches.mem_enabled.mp hk)
  refine ⟨⟨?_, ?_⟩, ?_, ?_⟩
  · intro hsame k hk hoccurs
    exact e.render_text_ne drawn hk hoccurs hsame
  · intro h
    rw [e.render_eq_start drawn h]
    rfl
  · intro h
    exact ⟨e.render_eq_start drawn h, e.replacementsFrom_eq_nil (hnone h)⟩
  · intro earlier k later received hstage
    have hoccurs := (e.stage?_ne_none_iff k received.drawn received.text).mp hstage
    have hchange : Rewritten received.text ((k :: later).foldl e.advance received).text :=
      e.foldl_advance_rewritten ⟨k, List.mem_cons_self .., hoccurs⟩
    rw [List.foldl_append]
    exact hchange.ne

end Engine

end Shortcode
