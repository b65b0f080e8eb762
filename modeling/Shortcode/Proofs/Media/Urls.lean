import Mathlib.Data.List.DropRight
import Shortcode.Media.Library
import Shortcode.Proofs.Config.Checks

/-! # URLs of media

A media URL begins as the base URL of its library does. Joining takes every slash from the end of
the base, also those of a scheme with nothing behind it; such a base is the one exception. -/

namespace Shortcode

namespace Url

/-- A scheme and nothing but slashes behind it. -/
def IsBareScheme (url : Text) : Prop :=
  ∃ scheme ∈ ["http:".toList, "https:".toList], ∃ n, url = scheme ++ List.replicate n '/'

theorem exists_slashes (base : Text) : ∃ n, base = dropSlashesEnd base ++ List.replicate n '/' := by
  let isSlash : Char → Bool := fun c => decide (c = '/')
  have hslash : ∀ c ∈ base.rtakeWhile isSlash, c = '/' := by
    intro c hc
    have htaken := List.mem_rtakeWhile_imp hc
    exact of_decide_eq_true htaken
  have hsplit := List.rdropWhile_append_rtakeWhile (p := isSlash) (l := base)
  rw [List.eq_replicate_of_mem hslash] at hsplit
  exact ⟨_, hsplit.symm⟩

theorem dropSlashesEnd_append {front : Text} (h : front.getLast? ≠ some '/') (n : Nat) :
    dropSlashesEnd (front ++ List.replicate n '/') = front := by
  induction n with
  | zero =>
    rw [List.replicate_zero, List.append_nil]
    apply List.rdropWhile_eq_self_iff.mpr
    intro hne hslash
    apply h
    rw [List.getLast?_eq_some_getLast hne, of_decide_eq_true hslash]
  | succ n ih =>
    rw [List.replicate_succ', ← List.append_assoc]
    exact (List.rdropWhile_concat_pos _ _ _ rfl).trans ih

theorem getLast?_dropSlashesEnd (base : Text) : (dropSlashesEnd base).getLast? ≠ some '/' := by
  intro hlast
  have hne : dropSlashesEnd base ≠ [] := by
    intro hnil
    rw [hnil] at hlast
    cases hlast
  have hslash := List.rdropWhile_last_not (fun c : Char => decide (c = '/')) base hne
  rw [List.getLast?_eq_some_getLast hne] at hlast
  exact hslash (decide_eq_true (Option.some.inj hlast))

theorem head?_dropSlashesStart (path : Text) : (dropSlashesStart path).head? ≠ some '/' := by
  intro hhead
  have hkept := List.head?_dropWhile_not (fun c : Char => decide (c = '/')) path
  rw [dropSlashesStart] at hhead
  rw [hhead] at hkept
  exact absurd hkept (by decide)

theorem isBareScheme_iff {url : Text} :
    IsBareScheme url ↔ dropSlashesEnd url ∈ ["http:".toList, "https:".toList] := by
  have hlast : ∀ scheme ∈ ["http:".toList, "https:".toList], scheme.getLast? ≠ some '/' := by
    decide
  constructor
  · intro h
    obtain ⟨scheme, hscheme, n, rfl⟩ := h
    rwa [dropSlashesEnd_append (hlast scheme hscheme) n]
  · intro h
    exact ⟨dropSlashesEnd url, h, exists_slashes url⟩

instance (url : Text) : Decidable (IsBareScheme url) :=
  decidable_of_iff _ isBareScheme_iff.symm

theorem join_of_ne_nil {base : Text} (hne : base ≠ []) (path : Text) :
    join base path = dropSlashesEnd base ++ '/' :: dropSlashesStart path := by
  rw [join, if_neg (by simpa using hne)]

variable {start base : Text}

/-- What an accepted base begins with stays in front unless the slashes at its end reach into it,
and then only the scheme is left of it. -/
theorem isPrefix_join (hstart : start ∈ Config.urlBeginnings) (h : start <+: base)
    (hbare : ¬ IsBareScheme base) (path : Text) : start <+: join base path := by
  have hne : base ≠ [] := by
    intro hnil
    subst hnil
    revert start
    decide
  rw [join_of_ne_nil hne]
  obtain ⟨n, hn⟩ := exists_slashes base
  obtain ⟨rest, hrest⟩ := h
  rw [hn] at hrest
  rcases List.append_eq_append_iff.mp hrest with ⟨z, hfront, -⟩ | ⟨z, hz, hslashes⟩
  · rw [hfront, List.append_assoc]
    exact List.prefix_append _ _
  · have hreplicate : z = List.replicate z.length '/' := by
      apply List.eq_replicate_of_mem
      intro c hc
      have hmem : c ∈ List.replicate n '/' := by
        rw [hslashes]
        exact List.mem_append_left rest hc
      exact (List.mem_replicate.mp hmem).2
    have hdropped := dropSlashesEnd_append (getLast?_dropSlashesEnd base) z.length
    rw [← hreplicate, ← hz] at hdropped
    rw [isBareScheme_iff, ← hdropped] at hbare
    have honly : ∀ start ∈ Config.urlBeginnings,
        dropSlashesEnd start ∉ ["http:".toList, "https:".toList] → start = ['/'] := by decide
    rw [← hdropped, honly start hstart hbare]
    exact ⟨dropSlashesStart path, rfl⟩

/-- A URL with a scheme as its base has one slash behind the scheme. -/
theorem not_isPrefix_join (hstart : start ∈ Config.urlBeginnings) (hbare : IsBareScheme base)
    (path : Text) : ¬ start <+: join base path := by
  have hne : base ≠ [] := by
    intro hnil
    subst hnil
    exact absurd hbare (by decide)
  have hsecond : ∀ front : Text, (front ++ "//".toList) <+: (front ++ '/' :: dropSlashesStart path) →
      False := by
    intro front h
    obtain ⟨-, hrest⟩ := List.cons_prefix_cons.mp (List.prefix_append_right_inj front |>.mp h)
    obtain ⟨rest, hrest⟩ := hrest
    apply head?_dropSlashesStart path
    rw [← hrest]
    rfl
  rw [join_of_ne_nil hne]
  have hscheme := isBareScheme_iff.mp hbare
  simp only [List.mem_cons, List.not_mem_nil, or_false] at hscheme
  simp only [Config.urlBeginnings, List.mem_cons, List.not_mem_nil, or_false] at hstart
  intro hprefix
  rcases hscheme with hscheme | hscheme <;> rw [hscheme] at hprefix
  · rcases hstart with rfl | rfl | rfl
    · exact hsecond "http:".toList hprefix
    · simp at hprefix
    · simp at hprefix
  · rcases hstart with rfl | rfl | rfl
    · simp at hprefix
    · exact hsecond "https:".toList hprefix
    · simp at hprefix

end Url

namespace MediaLibrary

open Config (urlBeginnings)

/-- In a library whose base URL is accepted and not empty, every media URL has the beginnings that the
base has, and so it has one of the accepted ones, unless the base is a scheme and slashes. With such a
base no URL has an accepted beginning. -/
theorem url_begins_as_base {c : Config} (hvalid : c.validate = .ok c) (hne : c.baseUrl ≠ [])
    {records : List MediaRecord} {l : MediaLibrary} (hl : ofRecords c.baseUrl records = .ok l)
    (r : MediaRecord) :
    (¬ Url.IsBareScheme c.baseUrl →
      (∃ start ∈ urlBeginnings, start <+: l.url r) ∧
        ∀ start ∈ urlBeginnings, start <+: c.baseUrl → start <+: l.url r) ∧
    (Url.IsBareScheme c.baseUrl → ∀ start ∈ urlBeginnings, ¬ start <+: l.url r) := by
  have hbase : l.baseUrl = c.baseUrl := by
    rw [ofRecords] at hl
    split at hl
    · cases hl
    · obtain rfl := Except.ok.inj hl
      rfl
  have hurl : l.url r = Url.join c.baseUrl r.path := by rw [url, hbase]
  obtain ⟨⟨haccepted, -⟩, -⟩ := Config.validate_eq_ok_iff.mp hvalid
  rw [hurl]
  constructor
  · intro hbare
    have hkept : ∀ start ∈ urlBeginnings, start <+: c.baseUrl →
        start <+: Url.join c.baseUrl r.path :=
      fun start hstart h => Url.isPrefix_join hstart h hbare r.path
    refine ⟨?_, hkept⟩
    rcases Config.urlFailure?_eq_none_iff.mp haccepted with hnil | hhttp | hhttps | hslash
    · exact absurd hnil hne
    · exact ⟨_, by decide, hkept _ (by decide) hhttp⟩
    · exact ⟨_, by decide, hkept _ (by decide) hhttps⟩
    · exact ⟨_, by decide, hkept _ (by decide) hslash⟩
  · intro hbare start hstart
    exact Url.not_isPrefix_join hstart hbare r.path

/-- A base of slashes, and a host that begins with one, in front of a path of slashes. -/
theorem url_begins_as_base_of_slashes :
    let c (url : String) : Config := { baseUrl := url.toList }
    let r : MediaRecord := { id := 1, name := "a".toList, path := "//".toList }
    let l (url : String) : MediaLibrary := ⟨url.toList, [r], by simp⟩
    ((c "//").validate = .ok (c "//") ∧ (c "//").baseUrl ≠ [] ∧
      ofRecords (c "//").baseUrl [r] = .ok (l "//") ∧ ¬ Url.IsBareScheme (c "//").baseUrl ∧
      "/".toList <+: (l "//").url r) ∧
    ((c "http:///h//").validate = .ok (c "http:///h//") ∧ (c "http:///h//").baseUrl ≠ [] ∧
      ofRecords (c "http:///h//").baseUrl [r] = .ok (l "http:///h//") ∧
      ¬ Url.IsBareScheme (c "http:///h//").baseUrl ∧
      "http://".toList <+: (l "http:///h//").url r) := by
  intro c r l
  have hslashes : ¬ Url.IsBareScheme (c "//").baseUrl := by decide
  have hhost : ¬ Url.IsBareScheme (c "http:///h//").baseUrl := by decide
  have hbuilt : ofRecords (c "//").baseUrl [r] = .ok (l "//") := rfl
  have hbuilt' : ofRecords (c "http:///h//").baseUrl [r] = .ok (l "http:///h//") := rfl
  obtain ⟨hkept, -⟩ := url_begins_as_base (by decide) (by decide) hbuilt r
  obtain ⟨hkept', -⟩ := url_begins_as_base (by decide) (by decide) hbuilt' r
  exact ⟨⟨by decide, by decide, hbuilt, hslashes, (hkept hslashes).2 _ (by decide) (by decide)⟩,
    ⟨by decide, by decide, hbuilt', hhost, (hkept' hhost).2 _ (by decide) (by decide)⟩⟩

/-- A scheme with nothing but its slashes behind it loses one of them. -/
theorem url_loses_slash_of_scheme :
    ¬ ∀ (c : Config) (records : List MediaRecord) (l : MediaLibrary) (r : MediaRecord),
      c.validate = .ok c → c.baseUrl ≠ [] → ofRecords c.baseUrl records = .ok l →
        (∃ start ∈ urlBeginnings, start <+: l.url r) ∧
          ∀ start ∈ urlBeginnings, start <+: c.baseUrl → start <+: l.url r := by
  intro hclaim
  let r : MediaRecord := { id := 1, name := "a.jpg".toList, path := "a.jpg".toList }
  let l : MediaLibrary := ⟨"http://".toList, [r], by simp⟩
  obtain ⟨⟨start, hstart, hprefix⟩, -⟩ :=
    hclaim { baseUrl := "http://".toList } [r] l r (by decide) (by decide) rfl
  have hurl : l.url r = "http:/a.jpg".toList := by decide
  rw [hurl] at hprefix
  revert start
  decide

end MediaLibrary

end Shortcode
