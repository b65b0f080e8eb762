import Shortcode.Text.Basic

/-! # Escaping

Five characters have a meaning in HTML: the ampersand, the angle brackets and the two quotes.
Escaped text holds an entity for each of them and every other character as it is. -/

namespace Shortcode.Markup

def entity (c : Char) : Text :=
  if c = '&' then "&amp;"
  else if c = '<' then "&lt;"
  else if c = '>' then "&gt;"
  else if c = '"' then "&quot;"
  else if c = '\'' then "&#039;"
  else [c]

/-- The text with each character that has a meaning in HTML written as its entity. -/
def escape (text : Text) : Text :=
  text.flatMap entity

theorem entity_of_not_mem {c : Char} (hc : c ∉ ['&', '<', '>', '"', '\'']) : entity c = [c] := by
  simp only [List.mem_cons, List.not_mem_nil, or_false, not_or] at hc
  simp only [entity, hc, if_false]

@[simp] theorem escape_nil : escape [] = [] := rfl

@[simp] theorem escape_cons (c : Char) (text : Text) :
    escape (c :: text) = entity c ++ escape text :=
  List.flatMap_cons

end Shortcode.Markup
