import Mathlib.Data.Finset.Card
import Mathlib.Data.Finset.Dedup
import Shortcode.Attributes
import Shortcode.Proofs.Scan.Cut
import Shortcode.Proofs.Text.Runs
import Shortcode.Proofs.Text.Words

/-! # Attributes in raw text

Which texts are attributes, said without the reader, where the characters of a value come from, and
what is read where pairs are written one behind the other. -/

namespace Shortcode

theorem Text.quote_not_mem_label {name : Text} (hname : ∀ c ∈ name, Text.isWordChar c = true) :
    '"' ∉ name ++ ['='] := by
  intro hmem
  rcases List.mem_append.mp hmem with hmem | hmem
  · exact absurd (hname _ hmem) (by decide)
  · simp at hmem

namespace Attributes

/-- A name of word characters and a value between double quotes. -/
inductive Written : Grammar (Text × Text) where
  | pair {name value : Text} (hne : name ≠ []) (hname : ∀ c ∈ name, Text.isWordChar c = true)
      (hquote : '"' ∉ value) : Written (name ++ '=' :: '"' :: (value ++ ['"'])) (name, value)

theorem Written.read {part : Text} {pair : Text × Text} (h : Written part pair) (rest : Text) :
    pair? (part ++ rest) = some (pair, rest) := by
  cases h with
  | @pair name value hne hname hquote =>
    have htext : name ++ '=' :: '"' :: (value ++ ['"']) ++ rest =
        name ++ '=' :: '"' :: (value ++ '"' :: rest) := by simp
    have hequals : Text.isWordChar '=' = false := by decide
    have hdrop : (name ++ '=' :: '"' :: (value ++ '"' :: rest)).dropWhile Text.isWordChar =
        '=' :: '"' :: (value ++ '"' :: rest) := by
      rw [List.dropWhile_append_of_pos hname]
      simp [hequals]
    have htake : (name ++ '=' :: '"' :: (value ++ '"' :: rest)).takeWhile Text.isWordChar =
        name := by
      rw [List.takeWhile_append_of_pos hname]
      simp [hequals]
    obtain ⟨c, name, rfl⟩ := List.exists_cons_of_ne_nil hne
    rw [htext]
    simp only [pair?, hdrop, htake, Text.dropWhile_ne_append hquote,
      Text.takeWhile_ne_append hquote]

theorem pair?_sound {text rest : Text} {pair : Text × Text} (h : pair? text = some (pair, rest)) :
    ∃ part, text = part ++ rest ∧ Written part pair := by
  unfold pair? at h
  split at h
  · rename_i rest' hdrop
    split at h
    · rename_i c name rest'' htake hvalue
      simp only [Option.some.injEq, Prod.mk.injEq] at h
      obtain ⟨rfl, rfl⟩ := h
      have hsplit := List.takeWhile_append_dropWhile (p := Text.isWordChar) (l := text)
      have hname := List.all_takeWhile (p := Text.isWordChar) (l := text)
      rw [htake, hdrop, Text.eq_append_of_dropWhile_ne hvalue] at hsplit
      rw [htake] at hname
      refine ⟨_, ?_, .pair (List.cons_ne_nil c name) (List.all_eq_true.mp hname)
        (Text.not_mem_takeWhile_ne '"' rest')⟩
      rw [← hsplit]
      simp
    · simp at h
  · simp at h

theorem reads_pair : Reads pair? Written where
  ne_nil := by
    rintro part pair ⟨hne, -, -⟩ hnil
    exact hne (List.append_eq_nil_iff.mp hnil).1
  sound := pair?_sound
  complete := Written.read

/-! ### Where values come from -/

variable {raw name : Text}

/-- A value stands in the raw text. -/
theorem isInfix_of_mem_pairs {value : Text} (h : (name, value) ∈ (parse raw).pairs) :
    value <:+: raw := by
  obtain ⟨cut, rfl, hcut⟩ := Cut.exists_isLeftmostOf reads_pair raw
  have hpairs : (parse cut.text).pairs = cut.values := hcut.hits_text reads_pair
  rw [hpairs] at h
  obtain ⟨part, hwithin, hpart⟩ := hcut.grammar_of_mem h
  refine List.IsInfix.trans ?_ hwithin
  cases hpart with
  | pair _ _ _ => exact ⟨name ++ ['=', '"'], ['"'], by simp⟩

/-- An attribute has the value that the text gives it, or the one to fall back on. -/
theorem getD_eq_or (raw name fallback : Text) :
    (parse raw).getD name fallback = fallback ∨ (parse raw).getD name fallback <:+: raw := by
  unfold getD get?
  cases hlookup : (parse raw).pairs.reverse.lookup name with
  | none => exact .inl rfl
  | some value =>
    obtain ⟨before, after, hpairs, -⟩ := List.lookup_eq_some_iff.mp hlookup
    have hpair : (name, value) ∈ (parse raw).pairs := by
      rw [← List.mem_reverse, hpairs]
      simp
    exact .inr (isInfix_of_mem_pairs hpair)

/-! ### Pairs behind each other -/

variable {gap after before value x y : Text}

theorem pairs_append_of_clear (h : Cut.Clear Written gap after) :
    (parse (gap ++ after)).pairs = (parse after).pairs := by
  simp only [parse, Scan.hits]
  rw [h.segments_append reads_pair, List.filterMap_append, Cut.filterMap_value?_gap,
    List.nil_append]

theorem pairs_of_count_lt_two (h : x.count '"' < 2) : (parse x).pairs = [] := by
  have hclear : Cut.Clear Written x [] := by
    rintro before inside part rest pair rfl hne htext ⟨hname, hword, hquote⟩
    rw [List.append_nil] at htext
    rw [htext] at h
    simp only [List.count_append, List.count_cons_self, List.count_cons] at h
    simp at h
    omega
  have hpairs := pairs_append_of_clear hclear
  rwa [List.append_nil] at hpairs

/-- A pair behind a text without quotes, where the name extends as far to the left as it can. -/
theorem pairs_append_of_labelled (hquote : '"' ∉ before)
    (hbefore : ∀ c ∈ before.getLast?, Text.isWordChar c = false) (hne : name ≠ [])
    (hname : ∀ c ∈ name, Text.isWordChar c = true) (hvalue : '"' ∉ value) :
    (parse (before ++ (name ++ ['=']) ++ '"' :: (value ++ '"' :: y))).pairs =
      (name, value) :: (parse y).pairs := by
  have hpart : Written (name ++ '=' :: '"' :: (value ++ ['"'])) (name, value) :=
    .pair hne hname hvalue
  have hclear : Cut.Clear Written before (name ++ '=' :: '"' :: (value ++ ['"']) ++ y) := by
    intro start inside part rest pair hgap hinside htext hpart
    obtain ⟨inside, c, rfl⟩ := (List.eq_nil_or_concat inside).resolve_left hinside
    rw [List.concat_eq_append] at hgap htext
    have hc : Text.isWordChar c = false := hbefore c (by rw [hgap]; simp)
    cases hpart with
    | @pair name' value' _ hname' _ =>
      -- Both names end in front of the first quote, so the one that begins further left covers `c`.
      have hsplit : (inside ++ [c] ++ name ++ ['=']) ++ '"' :: (value ++ '"' :: y) =
          (name' ++ ['=']) ++ '"' :: (value' ++ '"' :: rest) := by
        simpa using htext
      have hfront : '"' ∉ inside ++ [c] ++ name ++ ['='] := by
        have hleft : '"' ∉ inside ++ [c] := fun hmem =>
          hquote (hgap ▸ List.mem_append_right start hmem)
        have hright := Text.quote_not_mem_label hname
        rw [List.append_assoc, List.mem_append, not_or]
        exact ⟨hleft, hright⟩
      obtain ⟨heq, -⟩ := Text.append_cons_inj hfront (Text.quote_not_mem_label hname') hsplit
      have hchar := hname' c (by rw [← List.append_cancel_right heq]; simp)
      rw [hc] at hchar
      cases hchar
  have htext : before ++ (name ++ ['=']) ++ '"' :: (value ++ '"' :: y) =
      before ++ (name ++ '=' :: '"' :: (value ++ ['"']) ++ y) := by simp
  rw [htext, pairs_append_of_clear hclear]
  simp only [parse, Scan.hits]
  rw [Scan.segments_of_some (reads_pair.ne_nil hpart) (reads_pair.complete hpart y)]
  rfl

/-- A text without quotes sets off a pair if it does not end with a character of a name. -/
def SetsOff (gap : Text) : Prop :=
  '"' ∉ gap ∧ ∀ c ∈ gap.getLast?, Text.isWordChar c = false

/-- The last character is looked at, instead of every character there is. -/
instance (gap : Text) : Decidable (SetsOff gap) :=
  @instDecidableAnd _ _ inferInstance (Option.decidableForallMem _)

/-- The parts of a pair that can be written: a name of word characters and a value without
quotes. -/
def IsPair (pair : Text × Text) : Prop :=
  pair.1 ≠ [] ∧ pair.1.all Text.isWordChar = true ∧ '"' ∉ pair.2

instance (pair : Text × Text) : Decidable (IsPair pair) :=
  inferInstanceAs (Decidable (_ ∧ _ ∧ _))

/-- A pair as it is written. -/
def write (pair : Text × Text) : Text :=
  pair.1 ++ '=' :: '"' :: (pair.2 ++ ['"'])

/-- Reading recovers pairs that are written behind each other, whatever sets them off. -/
theorem pairs_of_written {parts : List (Text × (Text × Text))}
    (h : ∀ p ∈ parts, SetsOff p.1 ∧ IsPair p.2) (hafter : '"' ∉ after) :
    (parse (parts.flatMap (fun p => p.1 ++ write p.2) ++ after)).pairs = parts.map Prod.snd := by
  induction parts with
  | nil =>
    refine pairs_of_count_lt_two ?_
    rw [List.flatMap_nil, List.nil_append, List.count_eq_zero.mpr hafter]
    omega
  | cons p parts ih =>
    obtain ⟨⟨⟨hgap, hlast⟩, hne, hname, hvalue⟩, hrest⟩ := List.forall_mem_cons.mp h
    have htext : (p :: parts).flatMap (fun p => p.1 ++ write p.2) ++ after =
        p.1 ++ (p.2.1 ++ ['=']) ++
          '"' :: (p.2.2 ++ '"' :: (parts.flatMap (fun p => p.1 ++ write p.2) ++ after)) := by
      simp [write]
    have hword := List.all_eq_true.mp hname
    rw [htext, pairs_append_of_labelled hgap hlast hne hword hvalue, ih hrest, List.map_cons]

/-! ### Looking names up -/

/-- A name has the value of the last pair with this name. -/
theorem get?_eq_some_iff_last {a : Attributes} :
    a.get? name = some value ↔
      ∃ earlier later, a.pairs = earlier ++ (name, value) :: later ∧
        name ∉ later.map Prod.fst := by
  rw [get?, List.lookup_eq_some_iff]
  constructor
  · rintro ⟨later, earlier, hpairs, hlater⟩
    refine ⟨earlier.reverse, later.reverse, ?_, ?_⟩
    · have hreverse := congrArg List.reverse hpairs
      simpa using hreverse
    · intro hmem
      obtain ⟨p, hp, hname⟩ := List.mem_map.mp hmem
      have hne := hlater p (List.mem_reverse.mp hp)
      simp [hname] at hne
  · rintro ⟨earlier, later, hpairs, hlater⟩
    refine ⟨later.reverse, earlier.reverse, by simp [hpairs], ?_⟩
    intro p hp
    refine bne_iff_ne.mpr ?_
    rintro rfl
    exact hlater (List.mem_map_of_mem (List.mem_reverse.mp hp))

theorem get?_eq_none_iff {a : Attributes} :
    a.get? name = none ↔ name ∉ a.pairs.map Prod.fst := by
  rw [get?, List.lookup_eq_none_iff]
  simp only [List.mem_reverse, bne_iff_ne, List.mem_map, not_exists, not_and]
  exact forall₂_congr fun p _ => ne_comm

/-- Where no name is written twice, a name has the value that is written for it. -/
theorem get?_eq_some_iff {a : Attributes} (h : (a.pairs.map Prod.fst).Nodup) :
    a.get? name = some value ↔ (name, value) ∈ a.pairs := by
  rw [get?_eq_some_iff_last]
  constructor
  · rintro ⟨earlier, later, hpairs, -⟩
    rw [hpairs]
    exact List.mem_append_right earlier (List.mem_cons_self ..)
  · intro hmem
    obtain ⟨earlier, later, hpairs⟩ := List.append_of_mem hmem
    rw [hpairs, List.map_append, List.map_cons] at h
    exact ⟨earlier, later, hpairs, (List.nodup_cons.mp h.of_append_right).1⟩

theorem nodup_names (a : Attributes) : a.names.Nodup := by
  have key : ∀ n (names : List Text), names.length = n → names.eraseDups.Nodup := by
    intro n
    induction n using Nat.strongRecOn with
    | ind n ih =>
      intro names hn
      cases names with
      | nil => exact List.nodup_nil
      | cons name names =>
        have hle := List.length_filter_le (fun other => ! other == name) names
        simp only [List.length_cons] at hn
        have hrest := ih _ (by omega) (names.filter fun other => ! other == name) rfl
        rw [List.eraseDups_cons, List.nodup_cons, List.mem_eraseDups]
        exact ⟨by simp, hrest⟩
  exact key _ _ rfl

/-- A name that is written more than once counts once. -/
theorem size_eq_card (a : Attributes) : a.size = (a.pairs.map Prod.fst).toFinset.card := by
  have hsame : (a.pairs.map Prod.fst).toFinset = a.names.toFinset := by
    ext name
    simp only [names, List.mem_toFinset, List.mem_eraseDups]
  rw [hsame, List.toFinset_card_of_nodup a.nodup_names, size]

/-- Reading recovers what is written, whatever sets the pairs off. A name has the value that is
written for it last, and no value if it is not written; every name counts once. -/
theorem parse_written {parts : List (Text × (Text × Text))}
    (h : ∀ p ∈ parts, SetsOff p.1 ∧ IsPair p.2) (hafter : '"' ∉ after) :
    let a := parse (parts.flatMap (fun p => p.1 ++ write p.2) ++ after)
    let pairs := parts.map Prod.snd
    (∀ name value, a.get? name = some value ↔
      ∃ earlier later, pairs = earlier ++ (name, value) :: later ∧ name ∉ later.map Prod.fst) ∧
    (∀ name, a.get? name = none ↔ name ∉ pairs.map Prod.fst) ∧
    a.size = (pairs.map Prod.fst).toFinset.card ∧
    (a.isEmpty = true ↔ parts = []) := by
  intro a pairs
  have hpairs : a.pairs = pairs := pairs_of_written h hafter
  have hempty : a.isEmpty = true ↔ parts = [] := by
    rw [isEmpty, hpairs, List.isEmpty_iff, List.map_eq_nil_iff]
  rw [← hpairs]
  exact ⟨fun _ _ => get?_eq_some_iff_last, fun _ => get?_eq_none_iff, a.size_eq_card, hempty⟩

/-- A name that is written twice, values with an equals sign, brackets and a line break, and
pairs behind single quotes, behind bare words and right behind each other. -/
theorem parse_written_twice :
    let parts : List (Text × (Text × Text)) :=
      [("a='one' b=two ", "x", "1"), ("", "y_1", "[x=']\n"), ("=", "x", "")]
    let a := parse "a='one' b=two x=\"1\"y_1=\"[x=']\n\"=x=\"\" b=2"
    (∀ p ∈ parts, SetsOff p.1 ∧ IsPair p.2) ∧ '"' ∉ (" b=2" : Text) ∧
      a.get? "x" = some [] ∧ a.get? "y_1" = some "[x=']\n" ∧ a.get? "b" = none ∧ a.size = 2 ∧
      a.isEmpty = false := by
  intro parts a
  have hparts : ∀ p ∈ parts, SetsOff p.1 ∧ IsPair p.2 := by decide
  have hafter : '"' ∉ (" b=2" : Text) := by decide
  obtain ⟨hsome, hnone, hsize, hempty⟩ := parse_written hparts hafter
  refine ⟨hparts, hafter, ?_, ?_, ?_, hsize.trans (by decide), ?_⟩
  · exact (hsome "x" []).mpr ⟨[("x", "1"), ("y_1", "[x=']\n")], [], rfl, by decide⟩
  · exact (hsome "y_1" "[x=']\n").mpr ⟨[("x", "1")], [("x", [])], rfl, by decide⟩
  · exact (hnone "b").mpr (by decide)
  · exact Bool.eq_false_iff.mpr fun htrue => List.cons_ne_nil _ _ (hempty.mp htrue)

end Attributes

end Shortcode
