import Shortcode.Proofs.Tag.Reading
import Shortcode.Proofs.Text.Words

/-! # Written groups

The body of a container as it is usually written: children with filler around them. A closing tag
begins with an opening bracket and holds no other, and it holds no quote; so none arises where two
pieces meet, and the pieces can be looked at one by one. -/

namespace Shortcode

namespace Tag

variable {keyword other x y : Text}

/-! ### Texts without closing tags -/

theorem upToClosing?_eq_none_iff {text : Text} :
    upToClosing? keyword text = none ↔ Unclosed keyword text := by
  induction text with
  | nil => exact iff_of_true rfl unclosed_nil
  | cons c text ih =>
    have hfront : afterClosing? keyword (c :: text) = none ↔
        ∀ tag, Closes keyword tag → ¬ tag <+: c :: text := by
      simp only [Option.eq_none_iff_forall_ne_some, ne_eq, afterClosing?_eq_some_iff]
      constructor
      · intro h tag htag hprefix
        obtain ⟨rest, hrest⟩ := hprefix
        exact h rest ⟨tag, hrest.symm, htag⟩
      · intro h rest hread
        obtain ⟨tag, htext, htag⟩ := hread
        exact h tag htag ⟨rest, htext.symm⟩
    have hsplit : Unclosed keyword (c :: text) ↔
        (∀ tag, Closes keyword tag → ¬ tag <+: c :: text) ∧ Unclosed keyword text := by
      simp only [Unclosed, List.infix_cons_iff, not_or, imp_and, forall_and]
    rw [hsplit, ← hfront, ← ih, upToClosing?]
    cases afterClosing? keyword (c :: text) <;> simp

instance (keyword text : Text) : Decidable (Unclosed keyword text) :=
  decidable_of_iff _ upToClosing?_eq_none_iff

instance (keyword tag : Text) : Decidable (Closes keyword tag) :=
  decidable_of_iff (afterClosing? keyword tag = some []) <| by
    simp only [afterClosing?_eq_some_iff, List.append_nil, exists_eq_left']

theorem Unclosed.append_opening (hk : '[' ∉ keyword) (hx : Unclosed keyword x)
    (hy : Unclosed keyword ('[' :: y)) : Unclosed keyword (x ++ '[' :: y) := by
  intro tag htag hwithin
  obtain ⟨rest, rfl, hrest⟩ := htag.eq_cons hk
  rcases Text.isInfix_of_append_cons_head hrest hwithin with hwithin | hwithin
  · exact hx _ htag hwithin
  · exact hy _ htag hwithin

theorem Unclosed.append_filler (hx : '[' ∉ x) (hy : Unclosed keyword y) :
    Unclosed keyword (x ++ y) := by
  intro tag htag hwithin
  obtain ⟨inner, rfl⟩ := htag.bracketed
  exact hy _ htag (Text.isInfix_of_head_not_mem hx hwithin)

/-- A closing tag for one keyword holds none for another. -/
theorem Closes.unclosed_append {closing : Text} (h : Closes other closing) (hne : keyword ≠ other)
    (hk : ']' ∉ keyword) (hother : ']' ∉ other) (hopening : '[' ∉ other)
    (hy : Unclosed keyword y) : Unclosed keyword (closing ++ y) := by
  obtain ⟨word, hword, rfl⟩ := h
  intro tag htag hwithin
  obtain ⟨word', hword', rfl⟩ := htag
  have hmem := hword.not_mem (by decide) hother
  have hmem' := hword'.not_mem (by decide) hk
  rcases List.infix_cons_iff.mp hwithin with hprefix | hwithin
  · obtain ⟨after, hafter⟩ := hprefix
    have htail : word' ++ ']' :: after = word ++ ']' :: y := by simpa using hafter
    obtain ⟨rfl, -⟩ := Text.append_cons_inj hmem' hmem htail
    exact hne (hword'.symm.trans hword)
  · have hfront : '[' ∉ '/' :: (word ++ [']']) := by
      have hopens := hword.not_mem (by decide) hopening
      simp [hopens]
    exact hy _ ⟨word', hword', rfl⟩ (Text.isInfix_of_head_not_mem hfront hwithin)

end Tag

namespace Child

variable {container keyword : Text}

/-- A closing tag at the opening tag of a child stands in its title. -/
theorem Opens.unclosed_append {tag title rest : Text} (h : Opens keyword tag title)
    (hquote : '"' ∉ container) (hk : ']' ∉ keyword) (htitle : Tag.Unclosed container title)
    (hrest : Tag.Unclosed container rest) : Tag.Unclosed container (tag ++ rest) := by
  cases h with
  | @titled word blanks label title hword _ hblanks hlabel _ _ =>
    intro closing hclosing hwithin
    have hquote' : '"' ∉ closing := by
      obtain ⟨word', hword', rfl⟩ := hclosing
      have hmem := hword'.not_mem (by decide) hquote
      simp [hmem]
    have hpieces : closing <:+: ('[' :: (word ++ (blanks ++ (label ++ ['='])))) ++
        '"' :: (title ++ '"' :: (']' :: rest)) := by simpa using hwithin
    rcases Text.isInfix_of_append_cons hquote' hpieces with hfront | hbehind
    · -- The closing bracket of the tag comes behind the title.
      have hword' := hword.not_mem (by decide) hk
      have hblanks' : ']' ∉ blanks := fun hmem => absurd (hblanks _ hmem) (by decide)
      have hlabel' := hlabel.not_mem (c := ']') (by decide) (by decide)
      have hmem := hfront.subset hclosing.bracketed.mem_closing
      simp [hword', hblanks', hlabel'] at hmem
    · rcases Text.isInfix_of_append_cons hquote' hbehind with hinside | hbehind
      · exact htitle _ hclosing hinside
      · exact (hrest.append_filler (x := [']']) (by decide)) _ hclosing hbehind

/-- A child as it is written in a container, behind some filler. -/
structure Written where
  filler : Text
  opening : Text
  child : Child
  closing : Text
deriving DecidableEq, Repr

namespace Written

/-- The child with its tags. -/
def part (w : Written) : Text :=
  w.opening ++ (w.child.body ++ w.closing)

/-- The child with its tags behind its filler. -/
def text (w : Written) : Text :=
  w.filler ++ w.part

/-- The filler opens no bracket, and the child ends at its own closing tag, inside the container. The
title may hold closing tags of children. -/
structure Fits (container keyword : Text) (w : Written) : Prop where
  filler : '[' ∉ w.filler
  opens : Opens keyword w.opening w.child.title
  titleInside : Tag.Unclosed container w.child.title
  body : Tag.Unclosed keyword w.child.body
  bodyInside : Tag.Unclosed container w.child.body
  closes : Tag.Closes keyword w.closing

instance (container keyword : Text) (w : Written) : Decidable (w.Fits container keyword) :=
  decidable_of_iff
    ('[' ∉ w.filler ∧ opening? keyword w.opening = some (w.child.title, []) ∧
      Tag.Unclosed container w.child.title ∧ Tag.Unclosed keyword w.child.body ∧
      Tag.Unclosed container w.child.body ∧ Tag.Closes keyword w.closing) <| by
    rw [reads_opening.grammar_iff]
    constructor
    · intro h
      exact ⟨h.1, h.2.1, h.2.2.1, h.2.2.2.1, h.2.2.2.2.1, h.2.2.2.2.2⟩
    · intro h
      exact ⟨h.filler, h.opens, h.titleInside, h.body, h.bodyInside, h.closes⟩

theorem Fits.grammar {w : Written} (h : w.Fits container keyword) :
    Child.grammar keyword w.part w.child :=
  ⟨w.opening, w.child.body ++ w.closing, w.child.title, w.child.body, rfl, h.opens,
    .intro h.body h.closes, rfl⟩

end Written

/-- A child begins with an opening bracket. -/
theorem exists_of_grammar {part : Text} {child : Child} (h : Child.grammar keyword part child) :
    ∃ rest, part = '[' :: rest := by
  obtain ⟨tag, tail, title, body, rfl, htag, -, -⟩ := h
  cases htag with
  | titled => exact ⟨_, rfl⟩

/-- No child begins in a text without opening brackets. -/
theorem clear_filler {filler : Text} (h : '[' ∉ filler) (after : Text) :
    Cut.Clear (Child.grammar keyword) filler after := by
  intro before inside part rest child hfiller hne htext hpart
  obtain ⟨tail, rfl⟩ := exists_of_grammar hpart
  cases inside with
  | nil => exact hne rfl
  | cons c inside =>
    obtain ⟨rfl, -⟩ := List.cons.inj htext
    rw [hfiller] at h
    simp at h

end Child

/-- The children of a written group are the written ones, whatever stands around them. -/
theorem Occurrence.children_written {keyword container : Text} (hk : '[' ∉ keyword)
    {parts : List Child.Written} (h : ∀ w ∈ parts, w.Fits container keyword) {filler : Text}
    (hfiller : '[' ∉ filler) (raw : Text) :
    Occurrence.children ⟨raw, parts.flatMap Child.Written.text ++ filler⟩ keyword =
      parts.map Child.Written.child := by
  have hcut : ∃ cut : Cut Child,
      cut.IsLeftmostOf (Child.grammar keyword) (parts.flatMap Child.Written.text ++ filler) ∧
        cut.values = parts.map Child.Written.child := by
    induction parts with
    | nil => exact ⟨.last filler, ⟨rfl, Child.clear_filler hfiller []⟩, rfl⟩
    | cons w parts ih =>
      obtain ⟨hw, hparts⟩ := List.forall_mem_cons.mp h
      obtain ⟨cut, hcut, hvalues⟩ := ih hparts
      refine ⟨.next w.filler w.part w.child cut, ⟨?_, ?_, hw.grammar, hcut.2⟩, ?_⟩
      · rw [Cut.text, hcut.1, List.flatMap_cons, Child.Written.text]
        simp only [List.append_assoc]
      · exact Child.clear_filler hw.filler _
      · rw [Cut.values, hvalues, List.map_cons]
  obtain ⟨cut, hcut, hvalues⟩ := hcut
  rw [Occurrence.children_eq_values hk hcut, hvalues]

namespace Kind

variable {k : Kind} {keyword : Text}

theorem name_ne_child (h : k.shape = .container keyword) : k.name ≠ keyword := by
  cases k <;> cases h <;> decide

theorem closing_not_mem_child (h : k.shape = .container keyword) : ']' ∉ keyword := by
  cases k <;> cases h <;> decide

theorem quote_not_mem_name (k : Kind) : '"' ∉ k.name := by
  cases k <;> decide

/-- No piece of a written group closes the container. -/
theorem unclosed_written (hk : k.shape = .container keyword) {parts : List Child.Written}
    (h : ∀ w ∈ parts, w.Fits k.name keyword) {filler : Text} (hfiller : '[' ∉ filler) :
    Tag.Unclosed k.name (parts.flatMap Child.Written.text ++ filler) := by
  induction parts with
  | nil =>
    have hlast : Tag.Unclosed k.name (filler ++ []) := Tag.unclosed_nil.append_filler hfiller
    rwa [List.append_nil] at hlast
  | cons w parts ih =>
    obtain ⟨hw, hparts⟩ := List.forall_mem_cons.mp h
    have hrest := ih hparts
    have hclosing := hw.closes.unclosed_append (name_ne_child hk) k.closing_not_mem_name
      (closing_not_mem_child hk) (opening_not_mem_child hk) hrest
    have hbody : Tag.Unclosed k.name
        (w.child.body ++ (w.closing ++ (parts.flatMap Child.Written.text ++ filler))) := by
      obtain ⟨inner, hinner⟩ := hw.closes.bracketed
      rw [hinner] at hclosing ⊢
      exact hw.bodyInside.append_opening k.opening_not_mem_name hclosing
    have hopening := hw.opens.unclosed_append k.quote_not_mem_name (closing_not_mem_child hk)
      hw.titleInside hbody
    have hpiece := hopening.append_filler hw.filler
    rw [List.flatMap_cons, Child.Written.text, Child.Written.part]
    simpa only [List.append_assoc] using hpiece

/-- A written group is a shortcode with these children. -/
theorem grammar_written (hk : k.shape = .container keyword) {tag raw : Text}
    (htag : Tag.Opens k.name tag raw) {parts : List Child.Written}
    (h : ∀ w ∈ parts, w.Fits k.name keyword) {filler closing : Text} (hfiller : '[' ∉ filler)
    (hclosing : Tag.Closes k.name closing) :
    ∃ o : Occurrence, o.raw = raw ∧ o.children keyword = parts.map Child.Written.child ∧
      k.grammar (tag ++ (parts.flatMap Child.Written.text ++ (filler ++ closing))) o := by
  have hbody := unclosed_written hk h hfiller
  have hchildren := Occurrence.children_written (opening_not_mem_child hk) h hfiller raw
  refine ⟨⟨raw, parts.flatMap Child.Written.text ++ filler⟩, rfl, hchildren, ?_⟩
  rw [grammar_container hk, ← List.append_assoc (parts.flatMap _)]
  exact ⟨tag, _, raw, _, rfl, htag, .intro hbody hclosing, rfl⟩

end Kind

end Shortcode
