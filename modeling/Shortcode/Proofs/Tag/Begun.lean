import Mathlib.Data.List.Infix
import Shortcode.Proofs.Expansion.Supplied
import Shortcode.Proofs.Markup.Tidy
import Shortcode.Proofs.Text.Words

/-! # Begun tags

A tag of a kind has begun where an opening bracket and the name of the kind stand, whatever follows
them. Every shortcode of the kind begins so. A filled template only holds a begun tag that stood in
one of the supplied values: escaping joins nothing, the template has no bracket of its own, and
every slot is set off from what follows it. -/

namespace Shortcode

/-- A text starts with an opening bracket and the keyword. -/
def Tag.Starts (keyword text : Text) : Prop :=
  ∃ word, Spells keyword word ∧ '[' :: word <+: text

/-- An opening bracket and the keyword stand in a text. -/
def Tag.BegunIn (keyword text : Text) : Prop :=
  ∃ word, Spells keyword word ∧ '[' :: word <:+: text

namespace Tag.BegunIn

variable {keyword x y : Text}

theorem mono (h : BegunIn keyword x) (hxy : x <:+: y) : BegunIn keyword y := by
  obtain ⟨word, hword, hwithin⟩ := h
  exact ⟨word, hword, hwithin.trans hxy⟩

/-- A begun tag does not extend over a character that occurs in none. -/
theorem of_append_cons {c : Char} (hc : c ≠ '[') (hfold : Text.fold c = c) (hkeyword : c ∉ keyword)
    (h : BegunIn keyword (x ++ c :: y)) : BegunIn keyword x ∨ BegunIn keyword y := by
  obtain ⟨word, hword, hwithin⟩ := h
  have hmem : c ∉ '[' :: word := by
    rw [List.mem_cons, not_or]
    exact ⟨hc, hword.not_mem hfold hkeyword⟩
  rcases Text.isInfix_of_append_cons hmem hwithin with hx | hy
  · exact .inl ⟨word, hword, hx⟩
  · exact .inr ⟨word, hword, hy⟩

theorem of_append (hx : '[' ∉ x) (h : BegunIn keyword (x ++ y)) : BegunIn keyword y := by
  obtain ⟨word, hword, hwithin⟩ := h
  exact ⟨word, hword, Text.isInfix_of_head_not_mem hx hwithin⟩

theorem not_of_not_mem (hx : '[' ∉ x) : ¬ BegunIn keyword x := by
  rintro ⟨word, -, hwithin⟩
  exact hx (hwithin.subset (List.mem_cons_self ..))

end Tag.BegunIn

namespace Tag

variable {keyword text : Text}

theorem Starts.append (h : Starts keyword text) (after : Text) : Starts keyword (text ++ after) := by
  obtain ⟨word, hword, hprefix⟩ := h
  exact ⟨word, hword, hprefix.trans (List.prefix_append text after)⟩

theorem Starts.ne_nil (h : Starts keyword text) : text ≠ [] := by
  obtain ⟨word, -, after, rfl⟩ := h
  exact List.cons_ne_nil _ _

theorem begunIn_iff_exists_suffix :
    BegunIn keyword text ↔ ∃ rest, rest <:+ text ∧ Starts keyword rest := by
  constructor
  · rintro ⟨word, hword, before, after, rfl⟩
    refine ⟨'[' :: word ++ after, ⟨before, by simp⟩, word, hword, List.prefix_append _ _⟩
  · rintro ⟨rest, hrest, word, hword, hprefix⟩
    exact ⟨word, hword, hprefix.isInfix.trans hrest.isInfix⟩

theorem starts_iff : Starts keyword text ↔ (Text.afterFolded? ('[' :: keyword) text).isSome = true := by
  constructor
  · rintro ⟨word, hword, after, rfl⟩
    rw [show Text.afterFolded? ('[' :: keyword) ('[' :: word ++ after) = some after from
      afterFolded?_bracket_iff.mpr ⟨word, hword, rfl⟩]
    rfl
  · intro h
    obtain ⟨after, hread⟩ := Option.isSome_iff_exists.mp h
    obtain ⟨word, hword, rfl⟩ := afterFolded?_bracket_iff.mp hread
    exact ⟨word, hword, after, rfl⟩

instance (keyword text : Text) : Decidable (Starts keyword text) :=
  decidable_of_iff _ starts_iff.symm

/-- Whether a tag has begun is seen at the places of the text, one after the other. -/
theorem begunIn_iff : BegunIn keyword text ↔ ∃ rest ∈ text.tails, Starts keyword rest := by
  rw [begunIn_iff_exists_suffix]
  simp only [List.mem_tails]

instance (keyword text : Text) : Decidable (BegunIn keyword text) :=
  decidable_of_iff _ begunIn_iff.symm

end Tag

/-! ### Escaped text -/

namespace Markup

theorem entity_eq_or (c : Char) : entity c = [c] ∨ ∃ rest, entity c = '&' :: rest ∧ '[' ∉ rest := by
  by_cases hc : c ∈ ['&', '<', '>', '"', '\'']
  · simp only [List.mem_cons, List.not_mem_nil, or_false] at hc
    rcases hc with rfl | rfl | rfl | rfl | rfl <;> exact .inr ⟨_, rfl, by decide⟩
  · exact .inl (entity_of_not_mem hc)

theorem isPrefix_of_isPrefix_escape {word text : Text} (hword : '&' ∉ word)
    (h : word <+: escape text) : word <+: text := by
  induction text generalizing word with
  | nil => exact h
  | cons c text ih =>
    cases word with
    | nil => exact List.nil_prefix
    | cons d word =>
      rw [escape_cons] at h
      rcases entity_eq_or c with hentity | ⟨rest, hentity, -⟩
      · rw [hentity, List.cons_append, List.nil_append, List.cons_prefix_cons] at h
        rw [List.mem_cons, not_or] at hword
        exact List.cons_prefix_cons.mpr ⟨h.1, ih hword.2 h.2⟩
      · rw [hentity, List.cons_append, List.cons_prefix_cons] at h
        rw [h.1] at hword
        simp at hword

theorem begunIn_of_begunIn_escape {keyword text : Text} (hkeyword : '&' ∉ keyword)
    (h : Tag.BegunIn keyword (escape text)) : Tag.BegunIn keyword text := by
  induction text with
  | nil => exact h
  | cons c text ih =>
    have hrest : Tag.BegunIn keyword (escape text) → Tag.BegunIn keyword (c :: text) :=
      fun hbegun => (ih hbegun).mono (List.suffix_cons ..).isInfix
    rw [escape_cons] at h
    rcases entity_eq_or c with hentity | ⟨rest, hentity, hbracket⟩
    · rw [hentity, List.cons_append, List.nil_append] at h
      obtain ⟨word, hword, hwithin⟩ := h
      rcases List.infix_cons_iff.mp hwithin with hprefix | hwithin
      · rw [List.cons_prefix_cons] at hprefix
        obtain ⟨rfl, hprefix⟩ := hprefix
        have hmem := hword.not_mem (by decide) hkeyword
        have hfound := isPrefix_of_isPrefix_escape hmem hprefix
        exact ⟨word, hword, (List.cons_prefix_cons.mpr ⟨rfl, hfound⟩).isInfix⟩
      · exact hrest ⟨word, hword, hwithin⟩
    · have hfree : '[' ∉ '&' :: rest := by simpa using hbracket
      rw [hentity] at h
      exact hrest (h.of_append hfree)

end Markup

/-! ### Names of kinds -/

namespace Kind

variable {k : Kind} {x y id rest : Text}

theorem starts_of_grammar {part : Text} {o : Occurrence} (h : k.grammar part o) :
    Tag.Starts k.name part := by
  have hopens : ∀ {tag raw : Text}, Tag.Opens k.name tag raw → Tag.Starts k.name tag := by
    intro tag raw htag
    cases htag with
    | @bare word hword => exact ⟨word, hword, [']'], rfl⟩
    | @attributed word blanks raw hword _ _ _ _ =>
      exact ⟨word, hword, blanks ++ (raw ++ [']']), rfl⟩
  cases hshape : k.shape with
  | lone => exact hopens ((grammar_lone hshape).mp h).1
  | leaf =>
    rw [grammar_leaf hshape] at h
    obtain ⟨tag, rest, raw, body, rfl, htag, -⟩ := h
    exact (hopens htag).append rest
  | container child =>
    rw [grammar_container hshape] at h
    obtain ⟨tag, rest, raw, body, rfl, htag, -⟩ := h
    exact (hopens htag).append rest

theorem begunIn_of_occursIn {text : Text} (h : k.grammar.OccursIn text) :
    Tag.BegunIn k.name text := by
  obtain ⟨before, part, rest, o, rfl, hpart⟩ := h
  rw [Tag.begunIn_iff_exists_suffix, List.append_assoc]
  exact ⟨part ++ rest, List.suffix_append .., (starts_of_grammar hpart).append rest⟩

/-- The characters that set off slots occur in no name. -/
theorem begunIn_append_cons {c : Char} (hc : c ∈ ['"', '<', ' '])
    (h : Tag.BegunIn k.name (x ++ c :: y)) : Tag.BegunIn k.name x ∨ Tag.BegunIn k.name (c :: y) := by
  have hapart : c ≠ '[' ∧ Text.fold c = c ∧ c ∉ k.name := by
    simp only [List.mem_cons, List.not_mem_nil, or_false] at hc
    rcases hc with rfl | rfl | rfl <;> cases k <;> decide
  obtain ⟨hbracket, hfold, hname⟩ := hapart
  rcases h.of_append_cons hbracket hfold hname with hx | hy
  · exact .inl hx
  · exact .inr (hy.mono (List.suffix_cons ..).isInfix)

theorem inherited_not_begunIn (k : Kind) : Inherited fun text => ¬ Tag.BegunIn k.name text where
  part := fun hwithin hy hx => hy (hx.mono hwithin)
  bracketFree := fun hx => Tag.BegunIn.not_of_not_mem (Text.not_mem_of_isBracketFree hx (.inl rfl))
  joined := by
    intro x y hx hy hbegun
    have hblank : ' ' ∉ k.name := by cases k <;> decide
    rcases hbegun.of_append_cons (by decide) (by decide) hblank with hbegun | hbegun
    · exact hx hbegun
    · exact hy hbegun

theorem not_begunIn_escape (h : ¬ Tag.BegunIn k.name x) : ¬ Tag.BegunIn k.name (Markup.escape x) := by
  have hname : '&' ∉ k.name := by cases k <;> decide
  exact fun hbegun => h (Markup.begunIn_of_begunIn_escape hname hbegun)

end Kind

/-! ### Filled templates -/

namespace Markup.Template

variable {k : Kind} {id rest before : Text} {t : Template}

theorem exists_eq_cons_of_setsOff (h : t.setsOff = true) (id rest : Text) :
    ∃ c y, c ∈ ['"', '<', ' '] ∧ t.fill escape id ++ rest = c :: y := by
  induction t with
  | nil => cases h
  | cons p t ih =>
    cases p with
    | literal text =>
      cases text with
      | nil => cases h
      | cons c text => exact ⟨c, _, of_decide_eq_true h, rfl⟩
    | className text =>
      by_cases hempty : (escape text).isEmpty = true
      · obtain ⟨c, y, hc, hy⟩ := ih h
        refine ⟨c, y, hc, ?_⟩
        rw [← hy]
        simp [fill, Piece.fill, hempty]
      · exact ⟨' ', escape text ++ (fill escape id t ++ rest), by decide,
          by simp [fill, Piece.fill, hempty]⟩
    | value text => cases h
    | body text => cases h
    | id => cases h

/-- A tag that a supplied value does not begin does not begin in front of what sets the value
off. -/
theorem not_begunIn_append (h : t.setsOff = true) {x : Text} (hx : ¬ Tag.BegunIn k.name x)
    (ht : ¬ Tag.BegunIn k.name (t.fill escape id ++ rest)) :
    ¬ Tag.BegunIn k.name (x ++ (t.fill escape id ++ rest)) := by
  obtain ⟨c, y, hc, hy⟩ := exists_eq_cons_of_setsOff h id rest
  rw [hy] at ht ⊢
  intro hbegun
  rcases Kind.begunIn_append_cons hc hbegun with hbegun | hbegun
  · exact hx hbegun
  · exact ht hbegun

/-- A tidy template begins no tag that is not begun in a supplied value or in what follows. -/
theorem not_begunIn_fill (hfree : t.isBracketFree = true) (hfit : t.slotsFitAfter before = true)
    (hid : '[' ∉ id) (hsupplied : t.Supplies (fun v => ¬ Tag.BegunIn k.name v) id)
    (hrest : ¬ Tag.BegunIn k.name rest) : ¬ Tag.BegunIn k.name (t.fill escape id ++ rest) := by
  induction t generalizing before with
  | nil => exact hrest
  | cons p t ih =>
    rw [isBracketFree_cons, Bool.and_eq_true] at hfree
    obtain ⟨hfixed, hfree⟩ := hfree
    have hfill : fill escape id (p :: t) ++ rest =
        p.fill escape id ++ (fill escape id t ++ rest) := by simp [fill]
    rw [hfill]
    cases p with
    | literal text =>
      have htext : '[' ∉ text := Text.not_mem_of_isBracketFree hfixed (.inl rfl)
      exact fun hbegun => ih hfree hfit (supplies_literal.mp hsupplied) (hbegun.of_append htext)
    | value text =>
      obtain ⟨htext, hsupplied⟩ := supplies_value.mp hsupplied
      obtain ⟨hoff, hfit⟩ := Bool.and_eq_true_iff.mp hfit
      exact not_begunIn_append hoff (Kind.not_begunIn_escape htext) (ih hfree hfit hsupplied)
    | className text =>
      obtain ⟨htext, hsupplied⟩ := supplies_className.mp hsupplied
      obtain ⟨hoff, hfit⟩ := Bool.and_eq_true_iff.mp hfit
      refine not_begunIn_append hoff ?_ (ih hfree hfit hsupplied)
      simp only [Piece.fill]
      split
      · exact Tag.BegunIn.not_of_not_mem (by simp)
      · have hblank : '[' ∉ [' '] := by decide
        intro hbegun
        exact Kind.not_begunIn_escape htext (Tag.BegunIn.of_append (x := [' ']) hblank hbegun)
    | body text =>
      obtain ⟨htext, hsupplied⟩ := supplies_body.mp hsupplied
      obtain ⟨hoff, hfit⟩ := Bool.and_eq_true_iff.mp hfit
      exact not_begunIn_append hoff htext (ih hfree hfit hsupplied)
    | id =>
      obtain ⟨-, hsupplied⟩ := supplies_id.mp hsupplied
      obtain ⟨-, hfit⟩ := Bool.and_eq_true_iff.mp hfit
      exact fun hbegun => ih hfree hfit hsupplied (hbegun.of_append hid)

end Markup.Template

end Shortcode
