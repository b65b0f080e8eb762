import Shortcode.Proofs.Tag.Reading

/-! # Parts of shortcodes

The attributes and the body of a shortcode stand in its text, and so do the title and the body of a
child in the body of its container. -/

namespace Shortcode

namespace Tag

variable {keyword tag raw : Text}

theorem Opens.raw_isInfix_tail (h : Opens keyword tag raw) : raw <:+: tag.tail := by
  cases h with
  | bare _ => exact List.nil_infix
  | @attributed word blanks raw _ _ _ _ _ => exact ⟨word ++ blanks, [']'], by simp⟩

end Tag

theorem Child.Opens.title_isInfix {keyword tag title : Text} (h : Child.Opens keyword tag title) :
    title <:+: tag := by
  cases h with
  | @titled word blanks label title _ _ _ _ _ _ =>
    exact ⟨'[' :: (word ++ (blanks ++ (label ++ ['=', '"']))), ['"', ']'], by simp⟩

theorem Child.isInfix_of_grammar {keyword part : Text} {child : Child}
    (h : Child.grammar keyword part child) : child.title <:+: part ∧ child.body <:+: part := by
  obtain ⟨tag, rest, title, body, rfl, htag, hbody, rfl⟩ := h
  obtain ⟨closing, rfl, -⟩ := hbody.closing
  exact ⟨htag.title_isInfix.trans (List.prefix_append ..).isInfix, ⟨tag, closing, by simp⟩⟩

/-- The attributes and the body stand behind the first bracket. -/
theorem Kind.isInfix_tail_of_grammar {k : Kind} {part : Text} {o : Occurrence}
    (h : k.grammar part o) : o.raw <:+: part.tail ∧ o.body <:+: part.tail := by
  have htagged : ∀ {tag raw body closing : Text}, Tag.Opens k.name tag raw →
      raw <:+: (tag ++ (body ++ closing)).tail ∧ body <:+: (tag ++ (body ++ closing)).tail := by
    intro tag raw body closing htag
    have hraw := htag.raw_isInfix_tail
    obtain ⟨inner, rfl⟩ := htag.bracketed
    exact ⟨hraw.trans ⟨[], body ++ closing, rfl⟩, ⟨inner ++ [']'], closing, by simp⟩⟩
  cases hshape : k.shape with
  | lone =>
    obtain ⟨htag, hbody⟩ := (grammar_lone hshape).mp h
    exact ⟨htag.raw_isInfix_tail, hbody ▸ List.nil_infix⟩
  | leaf =>
    rw [grammar_leaf hshape] at h
    obtain ⟨tag, rest, raw, body, rfl, htag, hbody, rfl⟩ := h
    obtain ⟨closing, rfl, -⟩ := hbody.closing
    exact htagged htag
  | container child =>
    rw [grammar_container hshape] at h
    obtain ⟨tag, rest, raw, body, rfl, htag, hbody, rfl⟩ := h
    obtain ⟨closing, rfl, -⟩ := hbody.closing
    exact htagged htag

theorem Kind.isInfix_of_grammar {k : Kind} {part : Text} {o : Occurrence} (h : k.grammar part o) :
    o.raw <:+: part ∧ o.body <:+: part := by
  obtain ⟨hraw, hbody⟩ := k.isInfix_tail_of_grammar h
  have htail : part.tail <:+: part := (List.tail_suffix part).isInfix
  exact ⟨hraw.trans htail, hbody.trans htail⟩

theorem Occurrence.isInfix_of_mem_children {o : Occurrence} {keyword : Text} {child : Child}
    (hk : '[' ∉ keyword) (h : child ∈ o.children keyword) :
    child.title <:+: o.body ∧ child.body <:+: o.body := by
  obtain ⟨cut, hcut⟩ := Cut.exists_isLeftmostOf (Child.reads_read hk) o.body
  rw [Occurrence.children_eq_values hk hcut] at h
  obtain ⟨part, hpart, hgrammar⟩ := hcut.2.grammar_of_mem h
  rw [hcut.1] at hpart
  obtain ⟨htitle, hbody⟩ := Child.isInfix_of_grammar hgrammar
  exact ⟨htitle.trans hpart, hbody.trans hpart⟩

end Shortcode
