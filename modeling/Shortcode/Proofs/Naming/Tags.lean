import Shortcode.Proofs.Naming.Scan
import Shortcode.Proofs.Tag.Reading

/-! # Tags in woven texts

Brackets, blanks and keywords are the same in two woven texts, so the texts hold the same tags. The
raw attributes and the bodies are woven again. The title of a child holds no ID, since a quote would
stand in front of it. -/

namespace Shortcode

open Markup

variable {names : Text → Text → Prop} {keyword : Text}

theorem isClear_of_isBlank {c : Char} (h : Text.isBlank c = true) : isClear c = true := by
  have halphanum : c.isAlphanum = false := by
    simp only [Text.isBlank, Bool.or_eq_true, Bool.and_eq_true, decide_eq_true_eq, beq_iff_eq] at h
    unfold Char.isAlphanum Char.isAlpha Char.isUpper Char.isLower Char.isDigit
    simp only [Bool.or_eq_false_iff, Bool.and_eq_false_iff, decide_eq_false_iff_not, ge_iff_le,
      UInt32.le_iff_toNat_le, Char.toNat_val]
    have hvalues : 'A'.toNat = 65 ∧ 'Z'.toNat = 90 ∧ 'a'.toNat = 97 ∧ 'z'.toNat = 122 ∧
        '0'.toNat = 48 ∧ '9'.toNat = 57 := by decide
    omega
  have hother : c ∉ ['-', '=', '"', '#'] := by
    intro hmem
    simp only [List.mem_cons, List.not_mem_nil, or_false] at hmem
    rcases hmem with rfl | rfl | rfl | rfl <;> exact absurd h (by decide)
  simp only [isClear, halphanum, hother, decide_false, Bool.or_false, Bool.not_false]

section Plain

variable (hplain : PlainNames names)

include hplain

namespace Tag

theorem Closes.eq_append_of_woven (hk : '"' ∉ keyword) {tag rest z : Text} (htag : Closes keyword tag)
    (h : Woven names (tag ++ rest) z) : ∃ rest', z = tag ++ rest' ∧ Woven names rest rest' := by
  obtain ⟨word, hword, rfl⟩ := htag
  have htext : '[' :: '/' :: (word ++ [']']) ++ rest = ['[', '/'] ++ (word ++ ']' :: rest) := by simp
  rw [htext] at h
  obtain ⟨behind, rfl, hbehind⟩ := h.eq_append_of_isClear hplain (by decide)
  obtain ⟨rest', rfl, hrest⟩ := hbehind.eq_append_cons hplain (by decide)
    (hword.not_mem (by decide) hk)
  exact ⟨rest', by simp, hrest⟩

/-- Woven texts hold the same closing tags. -/
theorem Closes.isInfix_of_woven (hk : '"' ∉ keyword) {tag x y : Text} (htag : Closes keyword tag)
    (h : Woven names x y) (hwithin : tag <:+: x) : tag <:+: y := by
  obtain ⟨before, after, rfl⟩ := hwithin
  obtain ⟨inner, rfl⟩ := htag.bracketed
  have htext : before ++ '[' :: (inner ++ [']']) ++ after =
      before ++ '[' :: (inner ++ ']' :: after) := by simp
  rw [htext] at h
  obtain ⟨before', rest, rfl, -, hrest⟩ := h.split hplain (by decide)
  have hstart : Woven names ('[' :: (inner ++ [']']) ++ after) ('[' :: rest) := by
    simpa using Woven.char '[' hrest
  obtain ⟨rest', heq, -⟩ := htag.eq_append_of_woven hplain hk hstart
  exact ⟨before', rest', by rw [heq, List.append_assoc]⟩

/-- What opens a tag, up to its attributes, is the same in both texts. -/
theorem eq_append_blanks_of_woven (hk : '"' ∉ keyword) {word blanks x z : Text}
    (hword : Spells keyword word) (hne : blanks ≠ []) (hblanks : ∀ c ∈ blanks, Text.isBlank c = true)
    (h : Woven names ('[' :: (word ++ (blanks ++ x))) z) :
    ∃ y, z = '[' :: (word ++ (blanks ++ y)) ∧ Woven names x y := by
  obtain ⟨b, blanks, rfl⟩ := List.exists_cons_of_ne_nil hne
  obtain ⟨hb, htail⟩ := List.forall_mem_cons.mp hblanks
  obtain ⟨behind, rfl, hbehind⟩ := h.tail (by decide)
  obtain ⟨inside, rfl, hinside⟩ := hbehind.eq_append_cons hplain (isClear_of_isBlank hb)
    (hword.not_mem (by decide) hk)
  have hclear : blanks.all isClear = true :=
    List.all_eq_true.mpr fun c hc => isClear_of_isBlank (htail c hc)
  obtain ⟨y, rfl, hy⟩ := hinside.eq_append_of_isClear hplain hclear
  exact ⟨y, rfl, hy⟩

theorem steady_opens (hk : '"' ∉ keyword) : (Opens keyword).Steady names (Woven names) := by
  intro part rest z raw h htag
  cases htag with
  | @bare word hword =>
    have htext : '[' :: (word ++ [']']) ++ rest = ['['] ++ (word ++ ']' :: rest) := by simp
    rw [htext] at h
    obtain ⟨behind, rfl, hbehind⟩ := h.eq_append_of_isClear hplain (by decide)
    obtain ⟨rest', rfl, hrest⟩ := hbehind.eq_append_cons hplain (by decide)
      (hword.not_mem (by decide) hk)
    exact ⟨_, rest', [], by simp, hrest, .bare hword, .nil⟩
  | @attributed word blanks raw hword hne hblanks hraw hbracket =>
    have htext : '[' :: (word ++ (blanks ++ (raw ++ [']']))) ++ rest =
        '[' :: (word ++ (blanks ++ (raw ++ ']' :: rest))) := by simp
    rw [htext] at h
    obtain ⟨behind, rfl, hbehind⟩ := eq_append_blanks_of_woven hplain hk hword hne hblanks h
    obtain ⟨raw', rest', rfl, hwoven, hrest⟩ := hbehind.split hplain (by decide)
    have hraw' : ∀ c ∈ raw'.head?, Text.isBlank c = false := by
      rw [hwoven.head?_eq]
      exact hraw
    -- The attributes end at the same bracket, since no ID holds one.
    have hbracket' : ']' ∉ raw' := fun hmem =>
      hbracket ((hwoven.mem_iff hplain (by decide)).mp hmem)
    exact ⟨_, rest', raw', by simp, hrest, .attributed hword hne hblanks hraw' hbracket', hwoven⟩

/-- A body ends with the same closing tag in both texts. -/
theorem Closes.exists_body_of_woven (hk : '"' ∉ keyword) {body closing rest z : Text}
    (hclosing : Closes keyword closing) (h : Woven names (body ++ closing ++ rest) z) :
    ∃ body' rest', z = body' ++ closing ++ rest' ∧ Woven names body body' ∧
      Woven names rest rest' := by
  obtain ⟨inner, rfl⟩ := hclosing.bracketed
  rw [List.append_assoc, List.cons_append] at h
  obtain ⟨body', behind, rfl, hwoven, hbehind⟩ := h.split hplain (by decide)
  obtain ⟨rest', heq, hrest⟩ := hclosing.eq_append_of_woven hplain hk (Woven.char '[' hbehind)
  exact ⟨body', rest', by rw [List.append_assoc, heq], hwoven, hrest⟩

theorem steady_bracketFree (hk : '"' ∉ keyword) :
    (BracketFree keyword).Steady names (Woven names) := by
  rintro part rest z body h ⟨hbody, hclosing⟩
  obtain ⟨body', rest', rfl, hwoven, hrest⟩ := hclosing.exists_body_of_woven hplain hk h
  have hbody' : '[' ∉ body' := fun hmem => hbody ((hwoven.mem_iff hplain (by decide)).mp hmem)
  exact ⟨_, rest', body', rfl, hrest, .intro hbody' hclosing, hwoven⟩

theorem steady_enclosed (hk : '"' ∉ keyword) : (Enclosed keyword).Steady names (Woven names) := by
  rintro part rest z body h ⟨hbody, hclosing⟩
  obtain ⟨body', rest', rfl, hwoven, hrest⟩ := hclosing.exists_body_of_woven hplain hk h
  have hbody' : Unclosed keyword body' := fun tag htag hwithin =>
    hbody tag htag (htag.isInfix_of_woven hplain.flip hk hwoven.flip hwithin)
  exact ⟨_, rest', body', rfl, hrest, .intro hbody' hclosing, hwoven⟩

end Tag

/-! ### Children -/

namespace Woven

omit hplain in
/-- A label that no anchor's name ends is the same in both texts, up to the equals sign. -/
theorem eq_append_equals {label x z : Text} (hequals : '=' ∉ label)
    (hname : ∀ a ∈ anchors, ¬ a.name <:+ label) (h : Woven names (label ++ '=' :: x) z) :
    ∃ y, z = label ++ '=' :: y ∧ Woven names x y := by
  induction label generalizing z with
  | nil =>
    obtain ⟨y, rfl, hy⟩ := h.tail (by decide)
    exact ⟨y, rfl, hy⟩
  | cons c label ih =>
    rw [List.mem_cons, not_or] at hequals
    have hname' : ∀ a ∈ anchors, ¬ a.name <:+ label := fun a ha hsuffix =>
      hname a ha (hsuffix.trans (List.suffix_cons c label))
    generalize htext : c :: label ++ '=' :: x = text at h
    cases h with
    | nil => cases htext
    | char d h =>
      obtain ⟨rfl, rfl⟩ := List.cons.inj htext
      obtain ⟨y, rfl, hy⟩ := ih hequals.2 hname' h
      exact ⟨y, rfl, hy⟩
    | @anchor x₁ y₁ u v a closing ha hpair hclosing h =>
      -- The name of the anchor would be the whole label.
      have hfront : '=' ∉ a.name := fun hmem =>
        absurd (Anchor.isWordChar_of_mem_name ha _ hmem) (by decide)
      have hwhole : '=' ∉ c :: label := by simpa using hequals
      rw [Anchor.around_eq, List.append_assoc] at htext
      obtain ⟨heq, -⟩ := Text.append_cons_inj hwhole hfront htext
      exact absurd (heq ▸ List.suffix_refl _) (hname a ha)

/-- A title and the quote and bracket behind it are the same in both texts. -/
theorem eq_append_quote {title x z : Text} (hquote : '"' ∉ title)
    (h : Woven names (title ++ '"' :: ']' :: x) z) :
    ∃ y, z = title ++ '"' :: ']' :: y ∧ Woven names x y := by
  induction title generalizing z with
  | nil =>
    obtain ⟨behind, rfl, hbehind⟩ := h.tail (by decide)
    obtain ⟨y, rfl, hy⟩ := hbehind.tail (by decide)
    exact ⟨y, rfl, hy⟩
  | cons c title ih =>
    generalize htext : c :: title ++ '"' :: ']' :: x = text at h
    cases h with
    | nil => cases htext
    | char d h =>
      obtain ⟨rfl, rfl⟩ := List.cons.inj htext
      obtain ⟨y, rfl, hy⟩ := ih (fun hmem => hquote (List.mem_cons_of_mem c hmem)) h
      exact ⟨y, rfl, hy⟩
    | @anchor x₁ y₁ u v a closing ha hpair hclosing h =>
      -- The first quote would be that of the anchor, which no bracket follows.
      have hfront := Text.quote_not_mem_label (Anchor.isWordChar_of_mem_name ha)
      have haround : a.around u closing ++ x₁ =
          (a.name ++ ['=']) ++ '"' :: (a.lead ++ (u ++ [closing]) ++ x₁) := by
        simp [Anchor.around_eq]
      rw [haround] at htext
      obtain ⟨-, hbehind⟩ := Text.append_cons_inj hquote hfront htext
      have hmem : ']' ∈ a.lead ++ (u ++ [closing]) := by
        have hne : a.lead ++ (u ++ [closing]) ≠ [] := by simp
        obtain ⟨d, inside, hcons⟩ := List.exists_cons_of_ne_nil hne
        rw [hcons] at hbehind ⊢
        rw [(List.cons.inj hbehind).1]
        exact List.mem_cons_self ..
      have hclear := Anchor.not_mem_around (c := ']') ha (hplain u v hpair).1 hclosing (by decide)
      rw [Anchor.around_eq] at hclear
      exact absurd (List.mem_append_right _ (List.mem_cons_of_mem _ (List.mem_cons_of_mem _ hmem)))
        hclear

end Woven

theorem Child.steady_opens (hk : '"' ∉ keyword) : (Child.Opens keyword).Steady names Eq := by
  intro part rest z title h htag
  cases htag with
  | @titled word blanks label title hword hne hblanks hlabel htitle hquote =>
    have htext : '[' :: (word ++ (blanks ++ (label ++ '=' :: '"' :: (title ++ ['"', ']'])))) ++ rest =
        '[' :: (word ++ (blanks ++ (label ++ '=' :: '"' :: (title ++ '"' :: ']' :: rest)))) := by
      simp
    have hequals : '=' ∉ label := hlabel.not_mem (by decide) (by decide)
    have hname : ∀ a ∈ anchors, ¬ a.name <:+ label := by
      have hnone : ∀ a ∈ anchors, ¬ a.name.map Text.fold <:+ ("title" : Text) := by decide
      intro a ha hsuffix
      have hfolded := hsuffix.map Text.fold
      rw [hlabel] at hfolded
      exact hnone a ha hfolded
    rw [htext] at h
    obtain ⟨behind, rfl, hbehind⟩ := Tag.eq_append_blanks_of_woven hplain hk hword hne hblanks h
    obtain ⟨quoted, rfl, hquoted⟩ := hbehind.eq_append_equals hequals hname
    obtain ⟨value, rfl, hvalue⟩ := hquoted.tail (by decide)
    obtain ⟨rest', rfl, hrest⟩ := hvalue.eq_append_quote hplain hquote
    exact ⟨_, rest', title, by simp, hrest,
      .titled hword hne hblanks hlabel htitle hquote, rfl⟩

/-- Children that agree in their titles and have woven bodies. -/
def Child.Alike (names : Text → Text → Prop) (child child' : Child) : Prop :=
  child.title = child'.title ∧ Woven names child.body child'.body

/-- Occurrences that agree up to IDs in their attributes and in their bodies. -/
def Occurrence.Alike (names : Text → Text → Prop) (o o' : Occurrence) : Prop :=
  Woven names o.raw o'.raw ∧ Woven names o.body o'.body

theorem Child.steady_grammar (hk : '"' ∉ keyword) :
    (Child.grammar keyword).Steady names (Child.Alike names) :=
  (Child.steady_opens hplain hk).seq (Tag.steady_enclosed hplain hk) fun ha hb => ⟨ha, hb⟩

theorem Kind.steady_grammar (k : Kind) : k.grammar.Steady names (Occurrence.Alike names) := by
  have hk : '"' ∉ k.name := by cases k <;> decide
  have hopens := Tag.steady_opens hplain hk
  cases hshape : k.shape with
  | lone =>
    intro part rest z o h hpart
    obtain ⟨htag, hbody⟩ := (grammar_lone hshape).mp hpart
    obtain ⟨part', rest', raw', rfl, hrest, htag', hraw⟩ := hopens h htag
    refine ⟨part', rest', ⟨raw', []⟩, rfl, hrest, (grammar_lone hshape).mpr ⟨htag', rfl⟩, hraw, ?_⟩
    rw [hbody]
    exact .nil
  | leaf =>
    rw [grammar_leaf hshape]
    exact hopens.seq (Tag.steady_bracketFree hplain hk) fun ha hb => ⟨ha, hb⟩
  | container child =>
    rw [grammar_container hshape]
    exact hopens.seq (Tag.steady_enclosed hplain hk) fun ha hb => ⟨ha, hb⟩

theorem Kind.segments_alike (k : Kind) {x y : Text} (h : Woven names x y) :
    Scan.Alike names (Occurrence.Alike names) (Scan.segments k.occurrence? x)
      (Scan.segments k.occurrence? y) := by
  refine k.reads_occurrence.segments_alike ?_ hplain (k.steady_grammar hplain)
    (k.steady_grammar hplain.flip) h
  intro part o hpart
  obtain ⟨inner, rfl⟩ := k.bracketed_of_grammar hpart
  exact ⟨_, rfl⟩

theorem Occurrence.children_alike (hk : '"' ∉ keyword) (hbracket : '[' ∉ keyword)
    {o o' : Occurrence} (h : o.Alike names o') :
    List.Forall₂ (Child.Alike names) (o.children keyword) (o'.children keyword) := by
  have hscans : Scan.Alike names (Child.Alike names) (Scan.segments (Child.read? keyword) o.body)
      (Scan.segments (Child.read? keyword) o'.body) := by
    refine (Child.reads_read hbracket).segments_alike ?_ hplain (Child.steady_grammar hplain hk)
      (Child.steady_grammar hplain.flip hk) h.2
    rintro part child ⟨tag, tail, title, body, rfl, htag, -⟩
    cases htag
    exact ⟨_, rfl⟩
  exact hscans.forall₂_hits

end Plain

end Shortcode
