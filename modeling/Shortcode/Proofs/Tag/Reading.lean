import Shortcode.Proofs.Tag.Grammar
import Shortcode.Proofs.Text.Runs

/-! # Readers of tags

Each reader of tags recognises its part of the grammar, and so the reader of a kind recognises the
shortcodes of the kind and the reader of children the children of a container. -/

namespace Shortcode

namespace Tag

variable {keyword : Text}

/-! ### Opening tags -/

theorem afterFolded?_bracket_iff {text rest : Text} :
    Text.afterFolded? ('[' :: keyword) text = some rest ↔
      ∃ word, Spells keyword word ∧ text = '[' :: (word ++ rest) := by
  rw [Text.afterFolded?_eq_some_iff]
  constructor
  · rintro ⟨part, rfl, hpart⟩
    obtain ⟨c, word, rfl, hc, hword⟩ := List.map_eq_cons_iff.mp hpart
    have hc := Text.eq_of_fold_eq (by decide) hc
    exact ⟨word, hword, by rw [hc, List.cons_append]⟩
  · rintro ⟨word, hword, rfl⟩
    refine ⟨'[' :: word, rfl, ?_⟩
    rw [List.map_cons, hword]
    rfl

theorem Opens.read {tag raw : Text} (h : Opens keyword tag raw) (rest : Text) :
    opening? keyword (tag ++ rest) = some (raw, rest) := by
  cases h with
  | @bare word hword =>
    have hread : Text.afterFolded? ('[' :: keyword) ('[' :: (word ++ [']']) ++ rest) =
        some (']' :: rest) := afterFolded?_bracket_iff.mpr ⟨word, hword, by simp⟩
    simp only [opening?, hread]
  | @attributed word blanks raw hword hne hblanks hraw hbracket =>
    obtain ⟨b, blanks, rfl⟩ := List.exists_cons_of_ne_nil hne
    have hb := hblanks b (List.mem_cons_self ..)
    have hblanks := fun c hc => hblanks c (List.mem_cons_of_mem b hc)
    have hread : Text.afterFolded? ('[' :: keyword)
        ('[' :: (word ++ (b :: blanks ++ (raw ++ [']']))) ++ rest) =
          some (b :: (blanks ++ (raw ++ ']' :: rest))) :=
      afterFolded?_bracket_iff.mpr ⟨word, hword, by simp⟩
    have hne : b ≠ ']' := by
      rintro rfl
      exact absurd hb (by decide)
    have hhead : ∀ c ∈ (raw ++ ']' :: rest).head?, Text.isBlank c = false := by
      cases raw with
      | nil =>
        intro c hc
        obtain rfl := Option.some.inj hc
        decide
      | cons c raw => exact hraw
    have htrim := Text.trimStart_append hblanks hhead
    have htake := Text.takeWhile_ne_append hbracket rest
    have hdrop := Text.dropWhile_ne_append hbracket rest
    unfold opening?
    rw [hread]
    simp only [hb, htrim, htake, hdrop, if_true]

theorem opening?_sound {text raw rest : Text} (h : opening? keyword text = some (raw, rest)) :
    ∃ tag, text = tag ++ rest ∧ Opens keyword tag raw := by
  unfold opening? at h
  split at h
  · rename_i behind hread
    obtain ⟨word, hword, rfl⟩ := afterFolded?_bracket_iff.mp hread
    obtain ⟨rfl, rfl⟩ := Prod.mk.inj (Option.some.inj h)
    exact ⟨'[' :: (word ++ [']']), by simp, .bare hword⟩
  · rename_i c behind _ hread
    obtain ⟨word, hword, rfl⟩ := afterFolded?_bracket_iff.mp hread
    split at h
    · rename_i hc
      obtain ⟨blanks, hbehind, hblanks, hhead⟩ := Text.exists_blanks behind
      dsimp only at h
      split at h
      · rename_i d rest' hdrop
        obtain ⟨hraw, rfl⟩ := Prod.mk.inj (Option.some.inj h)
        have htext := Text.eq_append_of_dropWhile_ne hdrop
        have hmem := Text.not_mem_takeWhile_ne ']' (Text.trimStart behind)
        rw [hraw] at htext hmem
        rw [htext] at hbehind hhead
        have hfirst : ∀ c ∈ raw.head?, Text.isBlank c = false := by
          intro c hc
          exact hhead c (by rw [List.head?_append, Option.mem_def.mp hc]; rfl)
        have hallblank : ∀ b ∈ c :: blanks, Text.isBlank b = true :=
          List.forall_mem_cons.mpr ⟨hc, hblanks⟩
        refine ⟨_, ?_, .attributed hword (List.cons_ne_nil c blanks) hallblank hfirst hmem⟩
        rw [hbehind]
        simp
      · simp at h
    · simp at h
  · simp at h

theorem reads_opening : Reads (opening? keyword) (Opens keyword) where
  ne_nil := fun h => h.bracketed.ne_nil
  sound := opening?_sound
  complete := Opens.read

/-! ### Closing tags -/

theorem afterClosing?_eq_some_iff {text rest : Text} :
    afterClosing? keyword text = some rest ↔ ∃ tag, text = tag ++ rest ∧ Closes keyword tag := by
  unfold afterClosing?
  rw [Text.afterFolded?_eq_some_iff]
  constructor
  · rintro ⟨part, rfl, hpart⟩
    obtain ⟨c, part, rfl, hc, hpart⟩ := List.map_eq_cons_iff.mp hpart
    obtain ⟨d, part, rfl, hd, hpart⟩ := List.map_eq_cons_iff.mp hpart
    obtain ⟨word, last, rfl, hword, hlast⟩ := List.map_eq_append_iff.mp hpart
    obtain ⟨e, last, rfl, he, hlast⟩ := List.map_eq_cons_iff.mp hlast
    rw [List.map_eq_nil_iff.mp hlast]
    have hc := Text.eq_of_fold_eq (by decide) hc
    have hd := Text.eq_of_fold_eq (by decide) hd
    have he := Text.eq_of_fold_eq (by decide) he
    exact ⟨_, rfl, word, hword, by rw [hc, hd, he]⟩
  · rintro ⟨tag, rfl, word, hword, rfl⟩
    refine ⟨_, rfl, ?_⟩
    simp only [List.map_cons, List.map_append, List.map_nil]
    rw [hword]
    rfl

theorem Closes.read {tag : Text} (h : Closes keyword tag) (rest : Text) :
    afterClosing? keyword (tag ++ rest) = some rest :=
  afterClosing?_eq_some_iff.mpr ⟨tag, rfl, h⟩

/-! ### Bodies -/

theorem reads_bracketFree : Reads (bracketFree? keyword) (BracketFree keyword) where
  ne_nil := by
    intro part body h
    obtain ⟨closing, rfl, hclosing⟩ := h.closing
    exact hclosing.append_ne_nil body
  sound := by
    intro text body rest h
    obtain ⟨after, hread, hpair⟩ := Option.map_eq_some_iff.mp h
    obtain ⟨hbody, rfl⟩ := Prod.mk.inj hpair
    obtain ⟨closing, hdrop, hclosing⟩ := afterClosing?_eq_some_iff.mp hread
    refine ⟨body ++ closing, ?_, ?_⟩
    · rw [← hbody, List.append_assoc, ← hdrop, List.takeWhile_append_dropWhile]
    · refine .intro ?_ hclosing
      rw [← hbody]
      exact Text.not_mem_takeWhile_ne '[' text
  complete := by
    intro part body h rest
    cases h with
    | @intro body closing hbody hclosing =>
      obtain ⟨inner, rfl⟩ := hclosing.bracketed
      have hread := hclosing.read rest
      rw [List.cons_append] at hread
      unfold bracketFree?
      rw [List.append_assoc, List.cons_append, Text.takeWhile_ne_append hbody,
        Text.dropWhile_ne_append hbody, hread]
      rfl

/-- In front of a closing tag none is read that starts in a text without closing tags. -/
theorem Unclosed.afterClosing?_eq_none {c : Char} {body closing : Text} (hk : '[' ∉ keyword)
    (h : Unclosed keyword (c :: body)) (hclosing : Closes keyword closing) (rest : Text) :
    afterClosing? keyword (c :: (body ++ (closing ++ rest))) = none := by
  cases hread : afterClosing? keyword (c :: (body ++ (closing ++ rest))) with
  | none => rfl
  | some after =>
    obtain ⟨tag, htext, htag⟩ := afterClosing?_eq_some_iff.mp hread
    rw [← List.cons_append] at htext
    rcases List.append_eq_append_iff.mp htext with ⟨z, rfl, hz⟩ | ⟨z, hz, -⟩
    · -- The tag would reach into `closing`, whose first bracket it cannot hold.
      obtain ⟨inner, rfl⟩ := hclosing.bracketed
      cases z with
      | nil =>
        rw [List.append_nil] at htag
        exact absurd (List.infix_refl _) (h _ htag)
      | cons d z =>
        obtain ⟨rfl, -⟩ := List.cons.inj hz
        exact absurd (htag.eq_nil_of_append hk) (List.cons_ne_nil c body)
    · exact absurd ⟨[], z, by rw [List.nil_append, ← hz]⟩ (h tag htag)

theorem unclosed_nil : Unclosed keyword [] := by
  intro tag htag hwithin
  obtain ⟨inner, rfl⟩ := htag.bracketed
  simp at hwithin

theorem Unclosed.tail {c : Char} {body : Text} (h : Unclosed keyword (c :: body)) :
    Unclosed keyword body := by
  intro tag htag hwithin
  exact h tag htag (List.infix_cons hwithin)

theorem upToClosing?_sound {text body rest : Text}
    (h : upToClosing? keyword text = some (body, rest)) :
    ∃ part, text = part ++ rest ∧ Enclosed keyword part body := by
  induction text generalizing body with
  | nil => simp [upToClosing?] at h
  | cons c text ih =>
    unfold upToClosing? at h
    split at h
    · rename_i after hread
      obtain ⟨closing, htext, hclosing⟩ := afterClosing?_eq_some_iff.mp hread
      obtain ⟨rfl, rfl⟩ := Prod.mk.inj (Option.some.inj h)
      exact ⟨closing, htext, .intro unclosed_nil hclosing⟩
    · rename_i hread
      obtain ⟨⟨body', rest'⟩, hread', hpair⟩ := Option.map_eq_some_iff.mp h
      obtain ⟨rfl, rfl⟩ := Prod.mk.inj hpair
      obtain ⟨part, rfl, hpart⟩ := ih hread'
      cases hpart with
      | @intro body' closing hbody hclosing =>
        suffices hunclosed : Unclosed keyword (c :: body') from
          ⟨c :: body' ++ closing, rfl, .intro hunclosed hclosing⟩
        intro tag htag hwithin
        rcases List.infix_cons_iff.mp hwithin with ⟨z, hz⟩ | hwithin
        · -- A closing tag at `c` would have been read there.
          have hfound : afterClosing? keyword (c :: (body' ++ closing ++ rest')) =
              some (z ++ (closing ++ rest')) := by
            refine afterClosing?_eq_some_iff.mpr ⟨tag, ?_, htag⟩
            rw [← List.append_assoc, hz]
            simp
          rw [hfound] at hread
          simp at hread
        · exact hbody tag htag hwithin

theorem Enclosed.read {part body : Text} (hk : '[' ∉ keyword) (h : Enclosed keyword part body)
    (rest : Text) : upToClosing? keyword (part ++ rest) = some (body, rest) := by
  cases h with
  | @intro body closing hbody hclosing =>
    induction body with
    | nil =>
      obtain ⟨inner, rfl⟩ := hclosing.bracketed
      have hread := hclosing.read rest
      rw [List.cons_append] at hread
      rw [List.nil_append, List.cons_append, upToClosing?, hread]
    | cons c body ih =>
      have hnone := hbody.afterClosing?_eq_none hk hclosing rest
      have hrest := ih hbody.tail
      rw [List.append_assoc] at hrest
      rw [List.append_assoc, List.cons_append, upToClosing?, hnone, hrest]
      rfl

theorem reads_upToClosing (hk : '[' ∉ keyword) :
    Reads (upToClosing? keyword) (Enclosed keyword) where
  ne_nil := by
    intro part body h
    obtain ⟨closing, rfl, hclosing⟩ := h.closing
    exact hclosing.append_ne_nil body
  sound := upToClosing?_sound
  complete := Enclosed.read hk

end Tag

/-! ### Shortcodes -/

theorem Kind.occurrence?_lone {k : Kind} (h : k.shape = .lone) (text : Text) :
    k.occurrence? text = (Tag.opening? k.name text).map fun (raw, rest) => (⟨raw, []⟩, rest) := by
  unfold Kind.occurrence?
  rw [h]
  cases Tag.opening? k.name text <;> rfl

theorem Kind.occurrence?_leaf {k : Kind} (h : k.shape = .leaf) :
    k.occurrence? = fun text => do
      let (raw, rest) ← Tag.opening? k.name text
      let (body, rest) ← Tag.bracketFree? k.name rest
      return (⟨raw, body⟩, rest) := by
  unfold Kind.occurrence?
  rw [h]

theorem Kind.occurrence?_container {k : Kind} {child : Text} (h : k.shape = .container child) :
    k.occurrence? = fun text => do
      let (raw, rest) ← Tag.opening? k.name text
      let (body, rest) ← Tag.upToClosing? k.name rest
      return (⟨raw, body⟩, rest) := by
  unfold Kind.occurrence?
  rw [h]

theorem Kind.reads_lone {k : Kind} (h : k.shape = .lone) : Reads k.occurrence? k.grammar where
  ne_nil := fun hpart => (k.bracketed_of_grammar hpart).ne_nil
  sound := by
    intro text o rest hread
    rw [Kind.occurrence?_lone h] at hread
    obtain ⟨⟨raw, rest'⟩, hopening, hpair⟩ := Option.map_eq_some_iff.mp hread
    obtain ⟨rfl, rfl⟩ := Prod.mk.inj hpair
    obtain ⟨tag, htext, htag⟩ := Tag.opening?_sound hopening
    exact ⟨tag, htext, (Kind.grammar_lone h).mpr ⟨htag, rfl⟩⟩
  complete := by
    intro part o hpart rest
    obtain ⟨htag, hbody⟩ := (Kind.grammar_lone h).mp hpart
    rw [Kind.occurrence?_lone h, htag.read rest, ← hbody]
    rfl

/-- The reader of a kind reads the shortcodes of the kind. -/
theorem Kind.reads_occurrence (k : Kind) : Reads k.occurrence? k.grammar := by
  cases h : k.shape with
  | lone => exact Kind.reads_lone h
  | leaf =>
    rw [Kind.grammar_leaf h, Kind.occurrence?_leaf h]
    exact Tag.reads_opening.seq Occurrence.mk Tag.reads_bracketFree
  | container child =>
    rw [Kind.grammar_container h, Kind.occurrence?_container h]
    exact Tag.reads_opening.seq Occurrence.mk (Tag.reads_upToClosing k.opening_not_mem_name)

/-! ### Children -/

namespace Child

variable {keyword : Text}

theorem afterTitle_iff {text rest : Text} :
    Text.afterFolded? "title=\"" text = some rest ↔
      ∃ label, Spells "title" label ∧ text = label ++ '=' :: '"' :: rest := by
  rw [Text.afterFolded?_eq_some_iff]
  constructor
  · rintro ⟨part, rfl, hpart⟩
    have hsplit : part.map Text.fold = ("title" : Text) ++ ['=', '"'] := hpart
    obtain ⟨label, last, rfl, hlabel, hlast⟩ := List.map_eq_append_iff.mp hsplit
    obtain ⟨c, last, rfl, hc, hlast⟩ := List.map_eq_cons_iff.mp hlast
    obtain ⟨d, last, rfl, hd, hlast⟩ := List.map_eq_cons_iff.mp hlast
    have hc := Text.eq_of_fold_eq (by decide) hc
    have hd := Text.eq_of_fold_eq (by decide) hd
    rw [List.map_eq_nil_iff.mp hlast, hc, hd]
    exact ⟨label, hlabel, by simp⟩
  · rintro ⟨label, hlabel, rfl⟩
    refine ⟨label ++ ['=', '"'], by simp, ?_⟩
    rw [List.map_append, hlabel]
    rfl

theorem head_label_not_blank {label : Text} (h : Spells "title" label) (rest : Text) :
    ∀ c ∈ (label ++ rest).head?, Text.isBlank c = false := by
  have hfold : label.map Text.fold = 't' :: ("itle" : Text) := h
  obtain ⟨t, label, rfl, ht, -⟩ := List.map_eq_cons_iff.mp hfold
  intro c hc
  obtain rfl := Option.some.inj hc
  -- A blank stands for itself under folding, and `t` is not blank.
  cases hblank : Text.isBlank t with
  | false => rfl
  | true =>
    rw [Text.fold_of_isBlank hblank] at ht
    rw [ht] at hblank
    exact absurd hblank (by decide)

theorem Opens.read {tag title : Text} (h : Opens keyword tag title) (rest : Text) :
    opening? keyword (tag ++ rest) = some (title, rest) := by
  cases h with
  | @titled word blanks label title hword hne hblanks hlabel htitle hquote =>
    obtain ⟨b, blanks, rfl⟩ := List.exists_cons_of_ne_nil hne
    have hb := hblanks b (List.mem_cons_self ..)
    have hblanks := fun c hc => hblanks c (List.mem_cons_of_mem b hc)
    have hread : Text.afterFolded? ('[' :: keyword)
        ('[' :: (word ++ (b :: blanks ++ (label ++ '=' :: '"' :: (title ++ ['"', ']'])))) ++ rest) =
          some (b :: (blanks ++ (label ++ '=' :: '"' :: (title ++ '"' :: ']' :: rest)))) :=
      Tag.afterFolded?_bracket_iff.mpr ⟨word, hword, by simp⟩
    have htrim := Text.trimStart_append hblanks
      (head_label_not_blank hlabel ('=' :: '"' :: (title ++ '"' :: ']' :: rest)))
    have hlabelled : Text.afterFolded? "title=\""
        (label ++ '=' :: '"' :: (title ++ '"' :: ']' :: rest)) =
          some (title ++ '"' :: ']' :: rest) := afterTitle_iff.mpr ⟨label, hlabel, rfl⟩
    have htake := Text.takeWhile_ne_append hquote (']' :: rest)
    have hdrop := Text.dropWhile_ne_append hquote (']' :: rest)
    obtain ⟨c, title, rfl⟩ := List.exists_cons_of_ne_nil htitle
    unfold opening?
    rw [hread]
    simp only [hb, if_true, htrim, hlabelled]
    rw [htake, hdrop]
    rfl

theorem opening?_sound {text title rest : Text}
    (h : opening? keyword text = some (title, rest)) :
    ∃ tag, text = tag ++ rest ∧ Opens keyword tag title := by
  unfold opening? at h
  split at h
  · rename_i c behind hread
    obtain ⟨word, hword, rfl⟩ := Tag.afterFolded?_bracket_iff.mp hread
    split at h
    · rename_i hc
      obtain ⟨blanks, hbehind, hblanks, -⟩ := Text.exists_blanks behind
      split at h
      · rename_i value hvalue
        obtain ⟨label, hlabel, htrim⟩ := afterTitle_iff.mp hvalue
        split at h
        · rename_i d title' rest' htake hdrop
          obtain ⟨rfl, rfl⟩ := Prod.mk.inj (Option.some.inj h)
          have htext := Text.eq_append_of_dropWhile_ne hdrop
          have hmem := Text.not_mem_takeWhile_ne '"' value
          rw [htake] at htext hmem
          have hallblank : ∀ b ∈ c :: blanks, Text.isBlank b = true :=
            List.forall_mem_cons.mpr ⟨hc, hblanks⟩
          refine ⟨_, ?_, .titled hword (List.cons_ne_nil c blanks) hallblank hlabel
            (List.cons_ne_nil d title') hmem⟩
          rw [hbehind, htrim, htext]
          simp
        · simp at h
      · simp at h
    · simp at h
  · simp at h

theorem reads_opening : Reads (opening? keyword) (Opens keyword) where
  ne_nil := by
    intro part title h hnil
    cases h
    simp at hnil
  sound := opening?_sound
  complete := Opens.read

/-- The reader of children reads the children of a container. -/
theorem reads_read (hk : '[' ∉ keyword) : Reads (read? keyword) (grammar keyword) :=
  reads_opening.seq Child.mk (Tag.reads_upToClosing hk)

end Child

theorem Occurrence.children_eq_values {o : Occurrence} {keyword : Text} (hk : '[' ∉ keyword)
    {cut : Cut Child} (h : cut.IsLeftmostOf (Child.grammar keyword) o.body) :
    o.children keyword = cut.values :=
  h.hits_eq_values (Child.reads_read hk)

end Shortcode
