import Shortcode.Proofs.Engine.Stage

/-! # What a rendering changes

A shortcode begins with an opening bracket and its expansion with an angle bracket. So where a text
was changed first, an angle bracket stands in the place of an opening bracket; later stages keep it
so, and no text comes back. -/

namespace Shortcode

/-- The first difference between two texts is an opening bracket that became an angle bracket. -/
def Rewritten (text text' : Text) : Prop :=
  ∃ before after after', text = before ++ '[' :: after ∧ text' = before ++ '<' :: after'

namespace Rewritten

variable {text text' text'' : Text}

theorem ne (h : Rewritten text text') : text' ≠ text := by
  obtain ⟨before, after, after', rfl, rfl⟩ := h
  intro heq
  have hcons := List.append_cancel_left heq
  exact absurd (List.cons.inj hcons).1 (by decide)

/-- Of two changes after each other, the place further left is where the texts differ first. -/
theorem trans (h : Rewritten text text') (h' : Rewritten text' text'') :
    Rewritten text text'' := by
  obtain ⟨before, after, after', rfl, rfl⟩ := h
  obtain ⟨before', rest, rest', hmiddle, rfl⟩ := h'
  rcases List.append_eq_append_iff.mp hmiddle with ⟨z, rfl, hz⟩ | ⟨z, rfl, hz⟩
  · cases z with
    | nil => exact absurd (List.cons.inj hz).1 (by decide)
    | cons c z =>
      obtain ⟨rfl, -⟩ := List.cons.inj hz
      exact ⟨before, after, z ++ '<' :: rest', rfl, by simp⟩
  · cases z with
    | nil => exact absurd (List.cons.inj hz).1 (by decide)
    | cons c z =>
      obtain ⟨rfl, -⟩ := List.cons.inj hz
      exact ⟨before', z ++ '[' :: after, rest', by simp, rfl⟩

end Rewritten

/-- Every expansion begins with an angle bracket, whatever the escaper does. -/
theorem Kind.expand_text_eq_cons (k : Kind) (h : Host) (escape : Text → Text) (ids : Ids)
    (drawn : List Text) (o : Occurrence) :
    ∃ rest, ((k.expand h o).settle escape ids drawn).text = '<' :: rest := by
  cases k with
  | button => exact ⟨_, rfl⟩
  | alert => exact ⟨_, rfl⟩
  | gallery =>
    simp only [expand, Expansion.gallery_eq, Expansion.galleryMarkup]
    split <;> exact ⟨_, rfl⟩
  | tabs =>
    simp only [expand, Expansion.tabs]
    split <;> exact ⟨_, rfl⟩
  | accordion =>
    simp only [expand, Expansion.accordion]
    split <;> exact ⟨_, rfl⟩
  | countdown =>
    simp only [expand, Expansion.countdown]
    split <;> exact ⟨_, rfl⟩
  | contactForm => exact ⟨_, rfl⟩

namespace Engine

variable (e : Engine)

theorem renderCut_rewritten (k : Kind) (drawn : List Text) {text : Text} {cut : Cut Occurrence}
    (h : cut.IsLeftmostOf k.grammar text) (hvalues : cut.values ≠ []) :
    Rewritten text (e.renderCut k drawn cut).text := by
  obtain ⟨rfl, hcut⟩ := h
  cases cut with
  | last gap => exact absurd rfl hvalues
  | next gap part o rest =>
    obtain ⟨-, hpart, -⟩ := hcut
    obtain ⟨inner, rfl⟩ := k.bracketed_of_grammar hpart
    obtain ⟨tail, htail⟩ := k.expand_text_eq_cons e.host e.host.escape e.ids drawn o
    let r := (k.expand e.host o).settle e.host.escape e.ids drawn
    refine ⟨gap, inner ++ ']' :: rest.text, tail ++ (e.renderCut k r.drawn rest).text, ?_, ?_⟩
    · simp [Cut.text]
    · simp only [renderCut, r, htail, List.append_assoc, List.cons_append]

theorem advance_eq_self {k : Kind} {r : Rendering} (h : ¬ k.grammar.OccursIn r.text) :
    e.advance r k = r := by
  obtain ⟨cut, hcut⟩ := Cut.exists_isLeftmostOf k.reads_occurrence r.text
  have hvalues := hcut.values_eq_nil k.reads_occurrence h
  simp only [advance, e.stage?_eq_renderCut k hcut, if_pos hvalues]

theorem advance_rewritten {k : Kind} {r : Rendering} (h : k.grammar.OccursIn r.text) :
    Rewritten r.text (e.advance r k).text := by
  obtain ⟨cut, hcut⟩ := Cut.exists_isLeftmostOf k.reads_occurrence r.text
  have hvalues := (hcut.values_ne_nil_iff k.reads_occurrence).mpr h
  simp only [advance, e.stage?_eq_renderCut k hcut, if_neg hvalues]
  exact e.renderCut_rewritten k r.drawn hcut hvalues

theorem foldl_advance_eq_self {kinds : List Kind} {r : Rendering}
    (h : ∀ k ∈ kinds, ¬ k.grammar.OccursIn r.text) : kinds.foldl e.advance r = r := by
  induction kinds with
  | nil => rfl
  | cons k kinds ih =>
    rw [List.foldl_cons, e.advance_eq_self (h k (List.mem_cons_self ..))]
    exact ih fun l hl => h l (List.mem_cons_of_mem k hl)

/-- Stages of which one finds a shortcode in the text that the first of them receives do not give
this text back. -/
theorem foldl_advance_rewritten {kinds : List Kind} {r : Rendering}
    (h : ∃ k ∈ kinds, k.grammar.OccursIn r.text) :
    Rewritten r.text (kinds.foldl e.advance r).text := by
  induction kinds generalizing r with
  | nil => simp at h
  | cons k kinds ih =>
    rw [List.foldl_cons]
    by_cases hk : k.grammar.OccursIn r.text
    · have hstep := e.advance_rewritten hk
      by_cases hrest : ∃ l ∈ kinds, l.grammar.OccursIn (e.advance r k).text
      · exact hstep.trans (ih hrest)
      · rw [e.foldl_advance_eq_self fun l hl hoccurs => hrest ⟨l, hl, hoccurs⟩]
        exact hstep
    · rw [e.advance_eq_self hk]
      obtain ⟨l, hl, hoccurs⟩ := h
      rcases List.mem_cons.mp hl with rfl | hl
      · exact absurd hoccurs hk
      · exact ih ⟨l, hl, hoccurs⟩

end Engine

end Shortcode
