import Shortcode.Proofs.Markup.Frame

/-! # Escaped texts read back

An escaped text determines the text that it came from: its entities are read from the front, and no
entity begins as another one does. A text that holds entities itself is no exception, since their
ampersands are escaped like any others. -/

namespace Shortcode.Markup

/-- The text in which every entity is replaced by its character. -/
def unescape : Text → Text
  | '&' :: 'a' :: 'm' :: 'p' :: ';' :: rest => '&' :: unescape rest
  | '&' :: 'l' :: 't' :: ';' :: rest => '<' :: unescape rest
  | '&' :: 'g' :: 't' :: ';' :: rest => '>' :: unescape rest
  | '&' :: 'q' :: 'u' :: 'o' :: 't' :: ';' :: rest => '"' :: unescape rest
  | '&' :: '#' :: '0' :: '3' :: '9' :: ';' :: rest => '\'' :: unescape rest
  | c :: rest => c :: unescape rest
  | [] => []

theorem escape_append (s t : Text) : escape (s ++ t) = escape s ++ escape t :=
  List.flatMap_append

theorem unescape_cons_of_ne {c : Char} (hc : c ≠ '&') (rest : Text) :
    unescape (c :: rest) = c :: unescape rest := by
  rw [unescape] <;> simp [hc]

/-- The entity at the start of a text is read as its character, whatever follows it. -/
theorem unescape_entity_append (c : Char) (rest : Text) :
    unescape (entity c ++ rest) = c :: unescape rest := by
  by_cases hc : c ∈ ['&', '<', '>', '"', '\'']
  · simp only [List.mem_cons, List.not_mem_nil, or_false] at hc
    rcases hc with rfl | rfl | rfl | rfl | rfl <;> rfl
  · rw [entity_of_not_mem hc]
    simp only [List.mem_cons, List.not_mem_nil, or_false, not_or] at hc
    exact unescape_cons_of_ne hc.1 rest

theorem unescape_escape (text : Text) : unescape (escape text) = text := by
  induction text with
  | nil => rfl
  | cons c text ih => rw [escape_cons, unescape_entity_append, ih]

/-- Escaping works piece by piece. An escaped text holds no delimiter, every ampersand in it begins an
entity, and two texts with one escaped form are one text. -/
theorem escape_safe_and_lossless (s t : Text) :
    escape (s ++ t) = escape s ++ escape t ∧
      (delimiters (escape s) = [] ∧ AmpersandsBeginEntities (escape s)) ∧
      (escape s = escape t ↔ s = t) := by
  refine ⟨escape_append s t, ⟨delimiters_escape s, ampersandsBeginEntities_escape s⟩, ?_⟩
  have hback : Function.LeftInverse unescape escape := unescape_escape
  exact hback.injective.eq_iff

/-- A text that is escaped already is escaped again. -/
example : escape "&amp;<" = "&amp;amp;&lt;" ∧ unescape "&amp;amp;&lt;" = "&amp;<" := by decide

end Shortcode.Markup
