import Shortcode.Proofs.Naming.Woven

/-! # Attributes in woven texts

Raw attributes can hold IDs, where an earlier stage wrote its markup into the tag that is read. The
quotes of that markup then count for the attributes as any others do. An ID ends a name only behind
the name of an anchor, so it is never a part of an attribute with another name, and whatever follows
it up to the next quote or dash is no name either. -/

namespace Shortcode

open Markup

/-! ### Pairs between quotes -/

namespace Attributes

variable {gap after before name value x y : Text} {c : Char}

theorem exists_eq_concat {inside : Text} (hne : inside ≠ []) (h : gap ++ [c] = before ++ inside) :
    ∃ rest, inside = rest ++ [c] ∧ gap = before ++ rest := by
  obtain ⟨rest, d, rfl⟩ := (List.eq_nil_or_concat inside).resolve_left hne
  rw [List.concat_eq_append, ← List.append_assoc] at h
  obtain ⟨hgap, hlast⟩ := List.append_inj' h rfl
  obtain ⟨rfl, -⟩ := List.cons.inj hlast
  exact ⟨rest, List.concat_eq_append .., hgap⟩

theorem pairs_append_of_equals_not_mem (hequals : '=' ∉ gap ++ [c])
    (hword : Text.isWordChar c = false) :
    (parse (gap ++ [c] ++ after)).pairs = (parse after).pairs := by
  refine pairs_append_of_clear ?_
  intro before inside part rest pair hgap hne htext hpart
  have hinside : '=' ∉ inside := fun hmem => hequals (hgap ▸ List.mem_append_right before hmem)
  obtain ⟨inside, rfl, -⟩ := exists_eq_concat hne hgap
  cases hpart with
  | @pair name value _ hname _ =>
    have hsplit : name ++ '=' :: ('"' :: (value ++ '"' :: rest)) = inside ++ [c] ++ after := by
      simpa using htext.symm
    -- The name would cover the last character.
    obtain ⟨z, rfl, -⟩ := Text.exists_of_append_cons_eq hinside hsplit
    have hchar := hname c (by simp)
    rw [hword] at hchar
    cases hchar

/-- Where no name ends in front of a quote, no pair begins up to the quote. -/
theorem pairs_append_of_unlabelled (hquote : '"' ∉ x)
    (hlabel : ∀ c, Text.isWordChar c = true → ¬ [c, '='] <:+ x) :
    (parse (x ++ '"' :: y)).pairs = (parse y).pairs := by
  have htext : x ++ '"' :: y = x ++ ['"'] ++ y := by simp
  rw [htext]
  refine pairs_append_of_clear ?_
  intro before inside part rest pair hgap hne htext hpart
  obtain ⟨inside, rfl, rfl⟩ := exists_eq_concat hne hgap
  have hinside : '"' ∉ inside := fun hmem => hquote (List.mem_append_right before hmem)
  cases hpart with
  | @pair name value hname hword _ =>
    have hsplit : inside ++ '"' :: y = (name ++ ['=']) ++ '"' :: (value ++ '"' :: rest) := by
      simpa using htext
    obtain ⟨rfl, -⟩ := Text.append_cons_inj hinside (Text.quote_not_mem_label hword) hsplit
    obtain ⟨name, c, rfl⟩ := (List.eq_nil_or_concat name).resolve_left hname
    rw [List.concat_eq_append] at hword hlabel
    exact hlabel c (hword c (by simp)) ⟨before ++ name, by simp⟩

theorem pairs_of_last_quote (hx : '"' ∉ x) (hy : '"' ∉ y) : (parse (x ++ '"' :: y)).pairs = [] := by
  refine pairs_of_count_lt_two ?_
  rw [List.count_append, List.count_cons_self, List.count_eq_zero.mpr hx, List.count_eq_zero.mpr hy]
  omega

theorem exists_label (x : Text) :
    (∀ c, Text.isWordChar c = true → ¬ [c, '='] <:+ x) ∨
      ∃ before name, x = before ++ (name ++ ['=']) ∧ name ≠ [] ∧
        (∀ c ∈ name, Text.isWordChar c = true) ∧
        ∀ c ∈ before.getLast?, Text.isWordChar c = false := by
  by_cases h : ∃ c, Text.isWordChar c = true ∧ [c, '='] <:+ x
  · obtain ⟨c, hc, front, rfl⟩ := h
    have hsplit := List.takeWhile_append_dropWhile (p := Text.isWordChar) (l := (front ++ [c]).reverse)
    refine .inr ⟨((front ++ [c]).reverse.dropWhile Text.isWordChar).reverse,
      ((front ++ [c]).reverse.takeWhile Text.isWordChar).reverse, ?_, ?_, ?_, ?_⟩
    · rw [← List.append_assoc, ← List.reverse_append, hsplit, List.reverse_reverse]
      simp
    · simp [hc]
    · intro d hd
      rw [List.mem_reverse] at hd
      exact List.all_eq_true.mp List.all_takeWhile d hd
    · rw [List.getLast?_reverse]
      intro d hd
      have hhead := List.head?_dropWhile_not Text.isWordChar (front ++ [c]).reverse
      rw [Option.mem_def.mp hd] at hhead
      exact hhead
  · exact .inl fun c hc hsuffix => h ⟨c, hc, hsuffix⟩

theorem lookup_filter (pairs : List (Text × Text)) (name : Text) :
    (pairs.filter (·.1 = name)).lookup name = pairs.lookup name := by
  induction pairs with
  | nil => rfl
  | cons pair pairs ih =>
    obtain ⟨key, value⟩ := pair
    by_cases hkey : key = name
    · simp [hkey]
    · have hne : (name == key) = false := beq_eq_false_iff_ne.mpr (Ne.symm hkey)
      simp [hkey, List.lookup_cons, hne, ih]

end Attributes

/-! ### From quote to quote -/

variable {names : Text → Text → Prop} {x y r r' : Text}

/-- What two woven texts hold behind a quote: woven texts again, or the rest of an anchor first. -/
inductive Behind (names : Text → Text → Prop) : Text → Text → Prop where
  | woven {x y : Text} (h : Woven names x y) : Behind names x y
  | anchor {x y u v : Text} {a : Anchor} {closing : Char} (ha : a ∈ anchors) (hname : names u v)
      (hclosing : closing ∈ ['"', '-']) (h : Woven names x y) :
      Behind names (a.lead ++ u ++ [closing] ++ x) (a.lead ++ v ++ [closing] ++ y)

/-- Woven texts are the same up to the first quote. If it is not followed by woven texts, it is the
quote of an anchor. -/
theorem Woven.next_quote (h : Woven names x y) :
    ('"' ∉ x ∧ y = x) ∨ ∃ front r r', '"' ∉ front ∧ x = front ++ '"' :: r ∧
      y = front ++ '"' :: r' ∧ Behind names r r' ∧
        (Woven names r r' ∨ ∃ a ∈ anchors, a.name ++ ['='] <:+ front) := by
  induction h with
  | nil => exact .inl ⟨by simp, rfl⟩
  | @char x y c h ih =>
    by_cases hc : c = '"'
    · subst hc
      exact .inr ⟨[], x, y, by simp, rfl, rfl, .woven h, .inl h⟩
    · rcases ih with ⟨hquote, rfl⟩ | ⟨front, r, r', hfront, rfl, rfl, hbehind, hcase⟩
      · exact .inl ⟨by simp [Ne.symm hc, hquote], rfl⟩
      · refine .inr ⟨c :: front, r, r', by simp [Ne.symm hc, hfront], rfl, rfl, hbehind, ?_⟩
        rcases hcase with hwoven | ⟨a, ha, hsuffix⟩
        · exact .inl hwoven
        · exact .inr ⟨a, ha, hsuffix.trans (List.suffix_cons c front)⟩
  | @anchor x y u v a closing ha hname hclosing h _ =>
    refine .inr ⟨a.name ++ ['='], a.lead ++ u ++ [closing] ++ x, a.lead ++ v ++ [closing] ++ y,
      Text.quote_not_mem_label (Anchor.isWordChar_of_mem_name ha), ?_, ?_,
      .anchor ha hname hclosing h, .inr ⟨a, ha, List.suffix_refl _⟩⟩
    · simp [Anchor.around_eq]
    · simp [Anchor.around_eq]

/-- Behind an ID no pair begins before the woven texts go on. -/
theorem Behind.pairs_anchor {a : Anchor} {u : Text} {closing : Char} (ha : a ∈ anchors)
    (hu : u.isPlain = true) (hclosing : closing ∈ ['"', '-']) (x : Text) :
    (Attributes.parse (a.lead ++ u ++ [closing] ++ x)).pairs = (Attributes.parse x).pairs := by
  have hlead : ∀ a ∈ anchors, '=' ∉ a.lead := by decide
  have hends : ∀ c ∈ ['"', '-'], c ≠ '=' ∧ Text.isWordChar c = false :=
    Anchor.forall_closing (by decide) (by decide)
  obtain ⟨hne, hword⟩ := hends closing hclosing
  refine Attributes.pairs_append_of_equals_not_mem ?_ hword
  have hmem : '=' ∉ u := fun hmem => absurd (List.all_eq_true.mp hu _ hmem) (by decide)
  simp [hlead a ha, hmem, Ne.symm hne]

theorem name_isSuffix_of_label {a : Anchor} (ha : a ∈ anchors) {before name : Text}
    (hbefore : ∀ c ∈ before.getLast?, Text.isWordChar c = false)
    (h : a.name ++ ['='] <:+ before ++ (name ++ ['='])) : a.name <:+ name := by
  obtain ⟨front, hfront⟩ := h
  rw [← List.append_assoc, ← List.append_assoc] at hfront
  have hnames : front ++ a.name = before ++ name := List.append_cancel_right hfront
  rcases List.append_eq_append_iff.mp hnames with ⟨z, hz, hname⟩ | ⟨z, -, hname⟩
  · -- The name of the anchor cannot reach into what is in front of the other name.
    by_cases hnil : z = []
    · rw [hnil, List.nil_append] at hname
      exact ⟨[], hname⟩
    · obtain ⟨z, c, rfl⟩ := (List.eq_nil_or_concat z).resolve_left hnil
      rw [List.concat_eq_append] at hz hname
      have hc := hbefore c (by rw [hz]; simp)
      rw [Anchor.isWordChar_of_mem_name ha c (by rw [hname]; simp)] at hc
      cases hc
  · exact ⟨z, hname.symm⟩

theorem Woven.eq_of_quote {value value' t t' : Text} (hvalue : '"' ∉ value) (hvalue' : '"' ∉ value')
    (h : Woven names (value ++ '"' :: t) (value' ++ '"' :: t')) : value' = value := by
  rcases h.next_quote with ⟨hquote, -⟩ | ⟨front, r, r', hfront, heq, heq', -⟩
  · simp at hquote
  · rw [(Text.append_cons_inj hvalue hfront heq).1, (Text.append_cons_inj hvalue' hfront heq').1]

section Plain

variable (hplain : PlainNames names)

include hplain

theorem Behind.next_quote (h : Behind names r r') :
    ('"' ∉ r ∧ '"' ∉ r') ∨ ∃ value value' s s', '"' ∉ value ∧ '"' ∉ value' ∧
      r = value ++ '"' :: s ∧ r' = value' ++ '"' :: s' ∧ Behind names s s' := by
  cases h with
  | woven h =>
    rcases h.next_quote with ⟨hquote, rfl⟩ | ⟨front, s, s', hfront, rfl, rfl, hbehind, -⟩
    · exact .inl ⟨hquote, hquote⟩
    · exact .inr ⟨front, front, s, s', hfront, hfront, rfl, rfl, hbehind⟩
  | @anchor x y u v a closing ha hname hclosing h =>
    obtain ⟨hu, hv⟩ := hplain u v hname
    have hlead : ∀ a ∈ anchors, '"' ∉ a.lead := by decide
    have hquote : ∀ u : Text, u.isPlain = true → '"' ∉ a.lead ++ u := by
      intro u hu hmem
      rcases List.mem_append.mp hmem with hmem | hmem
      · exact hlead a ha hmem
      · exact absurd (List.all_eq_true.mp hu _ hmem) (by decide)
    simp only [List.mem_cons, List.not_mem_nil, or_false] at hclosing
    rcases hclosing with rfl | rfl
    · -- The quote ends the value that is the ID.
      exact .inr ⟨a.lead ++ u, a.lead ++ v, x, y, hquote u hu, hquote v hv, by simp, by simp,
        .woven h⟩
    · have hdash : ∀ {u front : Text}, u.isPlain = true → '"' ∉ front →
          '"' ∉ a.lead ++ u ++ ['-'] ++ front := by
        intro u front hu hfront
        have hstart := hquote u hu
        rw [List.append_assoc, List.mem_append, not_or]
        exact ⟨hstart, by simp [hfront]⟩
      rcases h.next_quote with ⟨hx, rfl⟩ | ⟨front, s, s', hfront, rfl, rfl, hbehind, -⟩
      · exact .inl ⟨hdash hu hx, hdash hv hx⟩
      · exact .inr ⟨_, _, s, s', hdash hu hfront, hdash hv hfront, by simp, by simp, hbehind⟩

/-- Woven attributes agree in every name that does not end with the name of an anchor. -/
theorem Behind.filter_pairs_eq {name : Text} (hname : ∀ a ∈ anchors, ¬ a.name <:+ name)
    (h : Behind names r r') :
    (Attributes.parse r').pairs.filter (·.1 = name) =
      (Attributes.parse r).pairs.filter (·.1 = name) := by
  -- A pair ends at its second quote, so the induction passes over one or two quotes at a time.
  generalize hn : r.length = n
  induction n using Nat.strongRecOn generalizing r r' with
  | ind n ih =>
    subst hn
    cases h with
    | @anchor x y u v a closing ha huv hclosing h =>
      obtain ⟨hu, hv⟩ := hplain u v huv
      rw [Behind.pairs_anchor ha hu hclosing, Behind.pairs_anchor ha hv hclosing]
      exact ih x.length (by simp; omega) (.woven h) rfl
    | @woven x y h =>
      rcases h.next_quote with ⟨hquote, rfl⟩ | ⟨front, s, s', hfront, rfl, rfl, hbehind, hcase⟩
      · rfl
      · rcases Attributes.exists_label front with hlabel | ⟨before, label, rfl, hne, hword, hbefore⟩
        · rw [Attributes.pairs_append_of_unlabelled hfront hlabel,
            Attributes.pairs_append_of_unlabelled hfront hlabel]
          exact ih s.length (by simp; omega) hbehind rfl
        · have hquote : '"' ∉ before := fun hmem => hfront (List.mem_append_left _ hmem)
          rcases hbehind.next_quote hplain with ⟨hs, hs'⟩ |
            ⟨value, value', t, t', hvalue, hvalue', rfl, rfl, hbehind'⟩
          · rw [Attributes.pairs_of_last_quote hfront hs, Attributes.pairs_of_last_quote hfront hs']
          · rw [Attributes.pairs_append_of_labelled hquote hbefore hne hword hvalue,
              Attributes.pairs_append_of_labelled hquote hbefore hne hword hvalue']
            have hrest := ih t.length (by simp; omega) hbehind' rfl
            -- Values differ at most where an ID stands, behind the name of an anchor.
            rcases hcase with hwoven | ⟨a, ha, hsuffix⟩
            · rw [hwoven.eq_of_quote hvalue hvalue', List.filter_cons, List.filter_cons, hrest]
            · have hother : label ≠ name := by
                rintro rfl
                exact hname a ha (name_isSuffix_of_label ha hbefore hsuffix)
              rw [List.filter_cons_of_neg (by simpa using hother),
                List.filter_cons_of_neg (by simpa using hother), hrest]

/-- An attribute whose name does not end with the name of an anchor has one value in woven texts. -/
theorem Attributes.getD_eq_of_woven {name : Text} (hname : ∀ a ∈ anchors, ¬ a.name <:+ name)
    {raw raw' : Text} (h : Woven names raw raw') (fallback : Text) :
    (parse raw').getD name fallback = (parse raw).getD name fallback := by
  have hpairs := Behind.filter_pairs_eq hplain hname (.woven h)
  have hlookup : ∀ a : Attributes, a.get? name = (a.pairs.filter (·.1 = name)).reverse.lookup name := by
    intro a
    rw [get?, ← lookup_filter, List.filter_reverse]
  rw [getD, getD, hlookup, hlookup, hpairs]

end Plain

end Shortcode
