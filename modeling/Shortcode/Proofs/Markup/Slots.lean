import Shortcode.Engine

/-! # Slots

What of a shortcode's markup comes from its template and what is supplied. No template holds a
square bracket, and escaping neither makes nor loses one. So a bracket in the markup was supplied:
by an attribute, a body, an image, another answer of the host, or an element ID. -/

namespace Shortcode

/-- An opening or a closing square bracket. -/
def IsBracket (c : Char) : Prop :=
  c = '[' ∨ c = ']'

/-- Whether no square bracket stands in a text. -/
def Text.isBracketFree (text : Text) : Bool :=
  text.all fun c => c ≠ '[' && c ≠ ']'

namespace Markup

/-- What the template itself contributes to a piece. -/
def Piece.fixed : Piece → Text
  | literal text => text
  | _ => []

/-- What is supplied for a piece, before it is escaped. -/
def Piece.supplied? (id : Text) : Piece → Option Text
  | literal _ => none
  | value text | className text | body text => some text
  | .id => some id

/-- Whether a template has no square bracket of its own. -/
def Template.isBracketFree (t : Template) : Bool :=
  t.all (·.fixed.isBracketFree)

/-- The values that are supplied for a template. -/
def Template.supplied (id : Text) (t : Template) : List Text :=
  t.filterMap (Piece.supplied? id)

end Markup

namespace Expansion

/-- Whether an expansion has no square bracket of its own. -/
def isBracketFree : Expansion → Bool
  | warning w => w.block.isBracketFree
  | plain markup => markup.isBracketFree
  | widget _ markup _ => markup.isBracketFree

/-- The values that are supplied for an expansion. -/
def supplied (ids : Ids) (drawn : List Text) : Expansion → List Text
  | warning _ => []
  | plain markup => markup.supplied []
  | widget stem markup _ => markup.supplied (ids.next drawn stem)

end Expansion

/-! ### Brackets in filled markup -/

variable {b : Char}

theorem Text.not_mem_of_isBracketFree {text : Text} (h : text.isBracketFree = true)
    (hb : IsBracket b) : b ∉ text := by
  intro hmem
  have hc := List.all_eq_true.mp h b hmem
  rcases hb with rfl | rfl <;> simp at hc

namespace Markup

/-- Only the bracket itself has a bracket in its escaped form. -/
theorem mem_entity_iff (hb : IsBracket b) {c : Char} : b ∈ entity c ↔ c = b := by
  by_cases hc : c ∈ ['&', '<', '>', '"', '\'']
  · simp only [List.mem_cons, List.not_mem_nil, or_false] at hc
    rcases hc with rfl | rfl | rfl | rfl | rfl <;> rcases hb with rfl | rfl <;> decide
  · rw [entity_of_not_mem hc, List.mem_singleton, eq_comm]

theorem mem_escape_iff (hb : IsBracket b) {text : Text} : b ∈ escape text ↔ b ∈ text := by
  simp only [escape, List.mem_flatMap, mem_entity_iff hb, exists_eq_right]

section Escaped

variable {escape : Text → Text} (hescape : ∀ text, b ∈ escape text → b ∈ text)
include hescape

theorem Piece.mem_fill {p : Piece} {id : Text} (hb : IsBracket b) (h : b ∈ p.fill escape id) :
    b ∈ p.fixed ∨ ∃ v, p.supplied? id = some v ∧ b ∈ v := by
  cases p with
  | literal text => exact .inl h
  | value text => exact .inr ⟨text, rfl, hescape text h⟩
  | className text =>
    simp only [fill] at h
    split at h
    · simp at h
    · rcases List.mem_cons.mp h with rfl | h
      · rcases hb with hb | hb <;> exact absurd hb (by decide)
      · exact .inr ⟨text, rfl, hescape text h⟩
  | body text => exact .inr ⟨text, rfl, h⟩
  | id => exact .inr ⟨id, rfl, h⟩

theorem Template.mem_fill {t : Template} {id : Text} (ht : t.isBracketFree = true)
    (hb : IsBracket b) (h : b ∈ t.fill escape id) : ∃ v ∈ t.supplied id, b ∈ v := by
  obtain ⟨p, hp, hmem⟩ := List.mem_flatMap.mp h
  have hfixed := Text.not_mem_of_isBracketFree (List.all_eq_true.mp ht p hp) hb
  rcases Piece.mem_fill hescape hb hmem with hmem | ⟨v, hv, hmem⟩
  · exact absurd hmem hfixed
  · exact ⟨v, List.mem_filterMap.mpr ⟨p, hp, hv⟩, hmem⟩

end Escaped

end Markup

/-- A square bracket in the settled markup was supplied, if escaping makes none. -/
theorem Expansion.mem_settle_text {x : Expansion} {escape : Text → Text} {ids : Ids}
    {drawn : List Text} (hescape : ∀ text, b ∈ escape text → b ∈ text)
    (hx : x.isBracketFree = true) (hb : IsBracket b)
    (h : b ∈ (x.settle escape ids drawn).text) : ∃ v ∈ x.supplied ids drawn, b ∈ v := by
  cases x with
  | warning w => exact absurd h (Text.not_mem_of_isBracketFree hx hb)
  | plain markup => exact Markup.Template.mem_fill hescape hx hb h
  | widget stem markup calls => exact Markup.Template.mem_fill hescape hx hb h

end Shortcode
