import Shortcode.Tag.Basic
import Shortcode.Proofs.Scan.Cut
import Shortcode.Proofs.Text.Folding

/-! # The grammar of shortcodes

Which texts are opening tags, closing tags, shortcodes of a kind and children of a container, said
without the readers. Every shortcode begins with an opening bracket and ends with a closing one,
and a closing tag holds no opening bracket but its first character; most facts about scanning rest
on that. -/

namespace Shortcode

/-- A word that equals a keyword under case folding. -/
def Spells (keyword word : Text) : Prop :=
  word.map Text.fold = keyword

namespace Tag

/-- An opening tag and its raw attributes: behind the keyword stands the closing bracket, or blanks
and then the attributes, up to the first closing bracket. The attributes begin with what is not
blank. -/
inductive Opens (keyword : Text) : Grammar Text where
  | bare {word : Text} (hword : Spells keyword word) : Opens keyword ('[' :: (word ++ [']'])) []
  | attributed {word blanks raw : Text} (hword : Spells keyword word) (hne : blanks ≠ [])
      (hblanks : ∀ c ∈ blanks, Text.isBlank c = true)
      (hraw : ∀ c ∈ raw.head?, Text.isBlank c = false) (hbracket : ']' ∉ raw) :
      Opens keyword ('[' :: (word ++ (blanks ++ (raw ++ [']'])))) raw

/-- A closing tag. -/
def Closes (keyword tag : Text) : Prop :=
  ∃ word, Spells keyword word ∧ tag = '[' :: '/' :: (word ++ [']'])

/-- No closing tag stands in the text. -/
def Unclosed (keyword text : Text) : Prop :=
  ∀ tag, Closes keyword tag → ¬ tag <:+: text

/-- A body without an opening bracket and the closing tag behind it. -/
inductive BracketFree (keyword : Text) : Grammar Text where
  | intro {body closing : Text} (hbody : '[' ∉ body) (hclosing : Closes keyword closing) :
      BracketFree keyword (body ++ closing) body

/-- A body that ends at the first closing tag, and that tag. -/
inductive Enclosed (keyword : Text) : Grammar Text where
  | intro {body closing : Text} (hbody : Unclosed keyword body)
      (hclosing : Closes keyword closing) : Enclosed keyword (body ++ closing) body

end Tag

/-- The shortcodes of a kind: an opening tag alone, or with a body of the kind's shape and the
closing tag. -/
def Kind.grammar (k : Kind) : Grammar Occurrence :=
  match k.shape with
  | .lone => fun part o => Tag.Opens k.name part o.raw ∧ o.body = []
  | .leaf => .seq Occurrence.mk (Tag.Opens k.name) (Tag.BracketFree k.name)
  | .container _ => .seq Occurrence.mk (Tag.Opens k.name) (Tag.Enclosed k.name)

/-- The opening tag of a child and its title, which is not empty. The tag holds nothing else. -/
inductive Child.Opens (keyword : Text) : Grammar Text where
  | titled {word blanks label title : Text} (hword : Spells keyword word) (hne : blanks ≠ [])
      (hblanks : ∀ c ∈ blanks, Text.isBlank c = true) (hlabel : Spells "title" label)
      (htitle : title ≠ []) (hquote : '"' ∉ title) :
      Child.Opens keyword
        ('[' :: (word ++ (blanks ++ (label ++ '=' :: '"' :: (title ++ ['"', ']']))))) title

/-- The children of a container. -/
def Child.grammar (keyword : Text) : Grammar Child :=
  .seq Child.mk (Child.Opens keyword) (Tag.Enclosed keyword)

/-! ### Brackets -/

/-- A text that begins with an opening bracket and ends with a closing one. -/
def Bracketed (text : Text) : Prop :=
  ∃ inner, text = '[' :: (inner ++ [']'])

namespace Bracketed

variable {text : Text}

theorem ne_nil (h : Bracketed text) : text ≠ [] := by
  obtain ⟨inner, rfl⟩ := h
  exact List.cons_ne_nil _ _

theorem mem_opening (h : Bracketed text) : '[' ∈ text := by
  obtain ⟨inner, rfl⟩ := h
  exact List.mem_cons_self ..

theorem mem_closing (h : Bracketed text) : ']' ∈ text := by
  obtain ⟨inner, rfl⟩ := h
  simp

end Bracketed

/-- A character that is only folded onto by itself stands in a word where it stands in the
keyword. -/
theorem Spells.not_mem {keyword word : Text} {c : Char} (h : Spells keyword word)
    (hfold : Text.fold c = c) (hc : c ∉ keyword) : c ∉ word := by
  intro hmem
  have hfolded := List.mem_map_of_mem (f := Text.fold) hmem
  rw [hfold, h] at hfolded
  exact hc hfolded

namespace Tag

variable {keyword : Text}

theorem Opens.bracketed {tag raw : Text} (h : Opens keyword tag raw) : Bracketed tag := by
  cases h with
  | @bare word _ => exact ⟨word, rfl⟩
  | @attributed word blanks raw _ _ _ _ _ =>
    exact ⟨word ++ (blanks ++ raw), by simp only [List.append_assoc]⟩

theorem Opens.closing_not_mem {tag raw : Text} (h : Opens keyword tag raw) : ']' ∉ raw := by
  cases h with
  | bare _ => simp
  | attributed _ _ _ _ hbracket => exact hbracket

/-- An opening tag ends at its first closing bracket. -/
theorem Opens.exists_inner {tag raw : Text} (h : Opens keyword tag raw) (hk : ']' ∉ keyword) :
    ∃ inner, tag = '[' :: (inner ++ [']']) ∧ ']' ∉ inner := by
  cases h with
  | @bare word hword => exact ⟨word, rfl, hword.not_mem (by decide) hk⟩
  | @attributed word blanks raw hword _ hblanks _ hbracket =>
    refine ⟨word ++ (blanks ++ raw), by simp only [List.append_assoc], ?_⟩
    have hword' := hword.not_mem (by decide) hk
    have hblanks' : ']' ∉ blanks := fun hmem => absurd (hblanks _ hmem) (by decide)
    simp [hword', hblanks', hbracket]

theorem Closes.bracketed {tag : Text} (h : Closes keyword tag) : Bracketed tag := by
  obtain ⟨word, -, rfl⟩ := h
  exact ⟨'/' :: word, rfl⟩

theorem Closes.append_ne_nil {tag : Text} (h : Closes keyword tag) (body : Text) :
    body ++ tag ≠ [] := by
  intro hnil
  exact h.bracketed.ne_nil (List.append_eq_nil_iff.mp hnil).2

/-- A closing tag holds no opening bracket but its first character. -/
theorem Closes.eq_cons {tag : Text} (h : Closes keyword tag) (hk : '[' ∉ keyword) :
    ∃ rest, tag = '[' :: rest ∧ '[' ∉ rest := by
  obtain ⟨word, hword, rfl⟩ := h
  refine ⟨'/' :: (word ++ [']']), rfl, ?_⟩
  have hmem := hword.not_mem (by decide) hk
  simp [hmem]

theorem Closes.eq_nil_of_append {before after : Text} (h : Closes keyword (before ++ '[' :: after))
    (hk : '[' ∉ keyword) : before = [] := by
  obtain ⟨rest, heq, hrest⟩ := h.eq_cons hk
  cases before with
  | nil => rfl
  | cons c before =>
    rw [List.cons_append] at heq
    rw [← (List.cons.inj heq).2] at hrest
    simp at hrest

theorem BracketFree.closing {part body : Text} (h : BracketFree keyword part body) :
    ∃ closing, part = body ++ closing ∧ Closes keyword closing := by
  cases h with
  | @intro body closing _ hclosing => exact ⟨closing, rfl, hclosing⟩

theorem Enclosed.closing {part body : Text} (h : Enclosed keyword part body) :
    ∃ closing, part = body ++ closing ∧ Closes keyword closing := by
  cases h with
  | @intro body closing _ hclosing => exact ⟨closing, rfl, hclosing⟩

/-- An opening tag, a body and a closing tag begin and end with brackets. -/
theorem Opens.bracketed_append {tag raw body closing : Text} (h : Opens keyword tag raw)
    (hclosing : Closes keyword closing) : Bracketed (tag ++ (body ++ closing)) := by
  obtain ⟨inner, rfl⟩ := h.bracketed
  obtain ⟨inner', rfl⟩ := hclosing.bracketed
  exact ⟨inner ++ (']' :: (body ++ '[' :: inner')), by simp⟩

end Tag

namespace Kind

theorem opening_not_mem_name (k : Kind) : '[' ∉ k.name := by
  cases k <;> decide

theorem closing_not_mem_name (k : Kind) : ']' ∉ k.name := by
  cases k <;> decide

theorem opening_not_mem_child {k : Kind} {child : Text} (h : k.shape = .container child) :
    '[' ∉ child := by
  cases k <;> cases h <;> decide

theorem grammar_lone {k : Kind} (h : k.shape = .lone) {part : Text} {o : Occurrence} :
    k.grammar part o ↔ Tag.Opens k.name part o.raw ∧ o.body = [] := by
  simp only [grammar, h]

theorem grammar_leaf {k : Kind} (h : k.shape = .leaf) :
    k.grammar = .seq Occurrence.mk (Tag.Opens k.name) (Tag.BracketFree k.name) := by
  simp only [grammar, h]

theorem grammar_container {k : Kind} {child : Text} (h : k.shape = .container child) :
    k.grammar = .seq Occurrence.mk (Tag.Opens k.name) (Tag.Enclosed k.name) := by
  simp only [grammar, h]

/-- A shortcode begins and ends with brackets. -/
theorem bracketed_of_grammar {k : Kind} {part : Text} {o : Occurrence} (h : k.grammar part o) :
    Bracketed part := by
  cases hshape : k.shape with
  | lone => exact ((grammar_lone hshape).mp h).1.bracketed
  | leaf =>
    rw [grammar_leaf hshape] at h
    obtain ⟨tag, rest, raw, body, rfl, htag, hbody, -⟩ := h
    obtain ⟨closing, rfl, hclosing⟩ := hbody.closing
    exact htag.bracketed_append hclosing
  | container child =>
    rw [grammar_container hshape] at h
    obtain ⟨tag, rest, raw, body, rfl, htag, hbody, -⟩ := h
    obtain ⟨closing, rfl, hclosing⟩ := hbody.closing
    exact htag.bracketed_append hclosing

end Kind

end Shortcode
