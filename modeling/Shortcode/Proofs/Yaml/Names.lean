import Shortcode.Proofs.Yaml.Padding
import Shortcode.Yaml.Tag

/-! # Names in padded texts

Names, tags and directives are the same in a padded text. No filler is a part of one. -/

namespace Shortcode.Yaml

variable {start : Mark} {gs gs' : List Glyph}

theorem isNameChar_eq_false_of_isFiller (c : Char) (h : isFiller c = true) : isNameChar c = false :=
  of_isFiller (p := fun c => isNameChar c = false) h (by decide)

theorem endsName_padded (h : Padded start gs gs') : endsName gs' = endsName gs := by
  have hhead : ∀ gs, endsName gs = (gs.head?.map Glyph.char).all fun c =>
      isSpace c || isBreak c || "?:,]\x7d%@\x60".toList.contains c := by
    intro gs
    cases gs <;> rfl
  rw [hhead, hhead]
  refine h.head? (f := (·.all _)) fun c hc => ?_
  rw [Option.all_some, isSpace_or_isBreak_of_isFiller hc]
  rfl

theorem name?_padded (h : Padded start gs gs') :
    Alike start gs.length Same (name? gs) (name? gs') := by
  have hrest := h.dropChars isNameChar
  unfold name?
  dsimp only
  rw [h.takeChars isNameChar_eq_false_of_isFiller, endsName_padded hrest]
  exact .ite Iff.rfl (fun _ => .failed) fun _ => .read rfl hrest (length_dropChars_le _ _)

namespace TagName

theorem isTagChar_eq_false_of_isFiller (bracketed : Bool) (c : Char) (h : isFiller c = true) :
    isTagChar bracketed c = false :=
  of_isFiller (p := fun c => isTagChar bracketed c = false) h (by cases bracketed <;> decide)

variable {bracketed : Bool} {p? : Option Partial} {inFlow : Bool}

/-- The characters of a tag behind a percent sign. -/
def escape? (bracketed : Bool) (p? : Option Partial) (gs : List Glyph) :
    Option (Text × List Glyph) :=
  if 2 ≤ gs.length then
    match (Text.numeral? 16 Text.hexDigit? (textOf (gs.take 2))).bind
      (p?.elim start? Partial.continue?) with
    | some (.inl p) => chars? bracketed (some p) (gs.drop 2)
    | some (.inr c) => (chars? bracketed none (gs.drop 2)).map fun (text, rest) => (c :: text, rest)
    | none => none
  else none

theorem chars?_cons (bracketed : Bool) (p? : Option Partial) (g : Glyph) (gs : List Glyph) :
    chars? bracketed p? (g :: gs) =
      if g.char = '%' then escape? bracketed p? gs
      else if p?.isSome then none
      else if isTagChar bracketed g.char then
        (chars? bracketed none gs).map fun (text, rest) => (g.char :: text, rest)
      else some ([], g :: gs) := by
  obtain ⟨c, m⟩ := g
  by_cases hc : c = '%'
  · subst hc
    match gs with
    | [] => cases p? <;> simp [chars?, escape?]
    | [_] => cases p? <;> simp [chars?, escape?]
    | a :: b :: gs =>
      rw [chars?]
      simp only [if_true, escape?, List.length_cons]
      rfl
  · have hne : ∀ (m' : Mark) (a b : Glyph) (rest : List Glyph),
        (⟨c, m⟩ : Glyph) = ⟨'%', m'⟩ → gs = a :: b :: rest → False := by
      rintro m' a b rest heq -
      cases heq
      exact hc rfl
    cases p? with
    | none =>
      rw [chars?.eq_5 _ _ _ hne]
      simp [hc]
    | some p =>
      rw [chars?.eq_4 _ _ _ _ hne]
      simp [hc]

theorem chars?_fillers (bracketed : Bool) (h : ∀ g ∈ gs, isFiller g.char = true) :
    chars? bracketed none gs = some ([], gs) := by
  cases gs with
  | nil => rfl
  | cons g gs =>
    have hg := h g (List.mem_cons_self ..)
    have hpercent : g.char ≠ '%' := of_isFiller (p := (· ≠ '%')) hg (by decide)
    rw [chars?_cons]
    simp [hpercent, isTagChar_eq_false_of_isFiller bracketed _ hg]

theorem chars?_some_fillers (bracketed : Bool) (p : Partial) (h : ∀ g ∈ gs, isFiller g.char = true) :
    chars? bracketed (some p) gs = none := by
  cases gs with
  | nil => rfl
  | cons g gs =>
    have hg := h g (List.mem_cons_self ..)
    have hpercent : g.char ≠ '%' := of_isFiller (p := (· ≠ '%')) hg (by decide)
    rw [chars?_cons]
    simp [hpercent]

theorem escape?_padded (h : Padded start gs gs')
    (ih : ∀ {gs₁ gs₁' : List Glyph} (p? : Option Partial), gs₁.length ≤ gs.length →
      Padded start gs₁ gs₁' →
      Alike start gs₁.length Same (chars? bracketed p? gs₁) (chars? bracketed p? gs₁')) :
    Alike start gs.length Same (escape? bracketed p? gs) (escape? bracketed p? gs') := by
  have hdrop : (gs.drop 2).length ≤ gs.length := by simp
  unfold escape?
  by_cases hn : 2 ≤ gs.length
  · rw [if_pos hn, if_pos (Nat.le_trans hn h.length_le), h.take hn]
    split
    · exact (ih _ hdrop (h.drop hn)).mono hdrop
    · refine (ih _ hdrop (h.drop hn)).map fun a b rest rest' hvalue hrest hlength => ?_
      exact .read (congrArg _ hvalue) hrest (Nat.le_trans hlength hdrop)
    · exact .failed
  · rw [if_neg hn]
    by_cases hn' : 2 ≤ gs'.length
    · rw [if_pos hn', h.numeral?_take (Nat.lt_of_not_le hn) hn']
      exact .failed
    · rw [if_neg hn']
      exact .failed

theorem chars?_padded (bracketed : Bool) (p? : Option Partial) (h : Padded start gs gs') :
    Alike start gs.length Same (chars? bracketed p? gs) (chars? bracketed p? gs') := by
  induction hn : gs.length using Nat.strongRecOn generalizing gs gs' p? with
  | ind n ih =>
  rcases h with hfiller | @⟨g, gs, gs', hlast, h⟩
  · cases p? with
    | none =>
      rw [chars?_fillers bracketed hfiller]
      exact .read rfl (.gap hfiller) (Nat.zero_le _)
    | some p =>
      rw [chars?_some_fillers bracketed p hfiller]
      exact .failed
  rw [List.length_cons] at hn
  rw [chars?_cons, chars?_cons]
  refine .ite Iff.rfl (fun _ => ?_) fun _ => ?_
  · refine (escape?_padded h fun p? hle h => ?_).mono (by omega)
    exact ih _ (by omega) p? h rfl
  refine .ite Iff.rfl (fun _ => .failed) fun _ => ?_
  refine .ite Iff.rfl (fun _ => ?_) fun _ => ?_
  · refine (ih gs.length (by omega) none h rfl).map fun a b rest rest' hvalue hrest hlength => ?_
    exact .read (congrArg (g.char :: ·) hvalue) hrest (by omega)
  · exact .read rfl (.cons hlast h) (by rw [List.length_cons]; omega)

theorem someChars?_padded (bracketed : Bool) (h : Padded start gs gs') :
    Alike start gs.length Same (someChars? bracketed gs) (someChars? bracketed gs') := by
  have hchars := chars?_padded bracketed none h
  unfold someChars?
  generalize chars? bracketed none gs = x at hchars
  generalize chars? bracketed none gs' = x' at hchars
  rcases hchars with @⟨⟨text, rest⟩, ⟨text', rest'⟩, hvalue, hrest, hlength⟩ | _
  · dsimp only [Same] at hvalue hrest hlength
    subst hvalue
    cases text' with
    | nil => exact .failed
    | cons c text => exact .read rfl hrest hlength
  · exact .failed

theorem someChars?_fillers (bracketed : Bool) (h : ∀ g ∈ gs, isFiller g.char = true) :
    someChars? bracketed gs = none := by
  unfold someChars?
  rw [chars?_fillers bracketed h]

theorem written?_padded (h : Padded start gs gs') :
    Alike start gs.length Same (written? gs) (written? gs') := by
  rcases h.starts (c := '<') (by decide) with ⟨m, m', rest, rest', rfl, rfl, hrest⟩ | ⟨hne, hne'⟩
  · refine (someChars?_padded true hrest).bind fun text text' rest rest' hvalue hrest hlength => ?_
    cases hvalue
    dsimp only
    rcases hrest.starts (c := '>') (by decide) with
      ⟨m, m', rest, rest', rfl, rfl, hrest'⟩ | ⟨hne, hne'⟩
    · rw [List.length_cons] at hlength ⊢
      exact .read rfl hrest' (by omega)
    · split
      · exact absurd rfl (hne _ _)
      · exact .failed
  · have hword := h.dropChars isNameChar
    have hle := length_dropChars_le isNameChar gs
    rw [written?.eq_2 _ hne, written?.eq_2 _ hne']
    dsimp only
    rw [h.takeChars isNameChar_eq_false_of_isFiller]
    generalize dropChars isNameChar gs = rest at hword hle
    generalize dropChars isNameChar gs' = rest' at hword
    rcases hword.starts (c := '!') (by decide) with
      ⟨m, m', rest, rest', rfl, rfl, hrest⟩ | ⟨hne, hne'⟩
    · rw [List.length_cons] at hle
      refine (someChars?_padded false hrest).map fun text text' rest rest' hvalue hrest hlength => ?_
      cases hvalue
      exact .read rfl hrest (by dsimp only; omega)
    · split
      · exact absurd rfl (hne _ _)
      refine (chars?_padded false none hword).map fun text text' rest rest' hvalue hrest hlength => ?_
      cases hvalue
      have hle' := Nat.le_trans hlength hle
      dsimp only
      split
      · exact .read rfl hrest hle'
      · exact .read rfl hrest hle'

theorem read?_padded (inFlow : Bool) (h : Padded start gs gs') :
    Alike start gs.length Same (read? inFlow gs) (read? inFlow gs') := by
  refine (written?_padded h).bind fun tag tag' rest rest' hvalue hrest hlength => ?_
  cases hvalue
  dsimp only
  rcases hrest.starts (c := ',') (by decide) with
    ⟨m, m', rest, rest', rfl, rfl, hrest'⟩ | ⟨hne, hne'⟩
  · exact .ite Iff.rfl (fun _ => .read rfl hrest hlength) fun _ => .failed
  · rw [hrest.atGap]
    split
    · exact absurd rfl (hne _ _)
    exact .ite Iff.rfl (fun _ => .read rfl hrest hlength) fun _ => .failed

end TagName

namespace Directive

theorem isDigit_eq_false_of_isFiller (c : Char) (h : isFiller c = true) :
    (Text.digit? c).isSome = false :=
  of_isFiller (p := fun c => (Text.digit? c).isSome = false) h (by decide)

theorem number?_padded (h : Padded start gs gs') :
    Alike start gs.length Same (number? gs) (number? gs') := by
  have hrest := h.dropChars fun c => (Text.digit? c).isSome
  have hle := length_dropChars_le (fun c => (Text.digit? c).isSome) gs
  unfold number?
  dsimp only
  rw [h.takeChars isDigit_eq_false_of_isFiller]
  refine .ite Iff.rfl (fun _ => .failed) fun _ => ?_
  cases Text.numeral? 10 Text.digit? (takeChars (fun c => (Text.digit? c).isSome) gs) with
  | none => exact .failed
  | some n => exact .read rfl hrest hle

theorem version?_padded (h : Padded start gs gs') :
    Alike start gs.length Same (version? gs) (version? gs') := by
  have hle := length_dropChars_le isSpace gs
  refine (number?_padded (h.dropChars isSpace)).bind fun major _ rest rest' hvalue hrest hlength => ?_
  cases hvalue
  dsimp only
  rcases hrest.starts (c := '.') (by decide) with
    ⟨m, m', rest, rest', rfl, rfl, hrest'⟩ | ⟨hne, hne'⟩
  · rw [List.length_cons] at hlength
    refine (number?_padded hrest').bind fun minor _ rest rest' hvalue hrest hlength' => ?_
    cases hvalue
    refine rel_bind hrest.afterLine? fun rest rest' ⟨hrest, hlength''⟩ => ?_
    exact Alike.read rfl hrest (by omega)
  · split
    · exact absurd rfl (hne _ _)
    · exact .failed

theorem handle?_padded (h : Padded start gs gs') :
    Alike start gs.length Same (handle? gs) (handle? gs') := by
  rcases h.starts (c := '!') (by decide) with ⟨m, m', rest, rest', rfl, rfl, hrest⟩ | ⟨hne, hne'⟩
  · have hword := hrest.dropChars isNameChar
    have hle := length_dropChars_le isNameChar rest
    simp only [handle?]
    rw [hrest.takeChars isNameChar_eq_false_of_isFiller, List.length_cons]
    generalize dropChars isNameChar rest = end₁ at hword hle
    generalize dropChars isNameChar rest' = end₂ at hword
    rcases hword.starts (c := '!') (by decide) with
      ⟨m, m', end₁, end₂, rfl, rfl, hend⟩ | ⟨hne, hne'⟩
    · rw [List.length_cons] at hle
      exact .read rfl hend (by omega)
    · split
      · exact absurd rfl (hne _ _)
      exact .ite Iff.rfl (fun _ => .read rfl hword (by omega)) fun _ => .failed
  · rw [handle?.eq_2 _ hne, handle?.eq_2 _ hne']
    exact .failed

theorem tagHandle?_padded (h : Padded start gs gs') :
    Alike start gs.length Same (tagHandle? gs) (tagHandle? gs') := by
  have hle := length_dropChars_le isSpace gs
  refine (handle?_padded (h.dropChars isSpace)).bind fun handle _ rest rest' hvalue hrest hlength => ?_
  cases hvalue
  dsimp only
  by_cases hne : rest = []
  · -- The second text may go on with a space here, but with no tag behind it.
    subst hne
    have hnone : TagName.someChars? true (dropChars isSpace rest') = none :=
      TagName.someChars?_fillers true (hrest.dropChars isSpace).fillers
    rw [hnone]
    cases atSpace rest' <;> exact .failed
  refine .ite (by rw [hrest.atSpace hne]) (fun _ => .failed) fun _ => ?_
  have hspaces := length_dropChars_le isSpace rest
  refine (TagName.someChars?_padded true (hrest.dropChars isSpace)).bind
    fun first _ rest rest' hvalue hrest hlength' => ?_
  cases hvalue
  dsimp only
  refine .ite (by rw [hrest.atGap]) (fun _ => .failed) fun _ => ?_
  refine rel_bind hrest.afterLine? fun rest rest' ⟨hrest, hlength''⟩ => ?_
  exact Alike.read rfl hrest (by omega)

theorem read?_padded (h : Padded start gs gs') :
    Alike start gs.length Same (read? gs) (read? gs') := by
  have hrest := h.dropChars isNameChar
  have hle := length_dropChars_le isNameChar gs
  unfold read?
  dsimp only
  rw [h.takeChars isNameChar_eq_false_of_isFiller, hrest.atGap]
  refine .ite Iff.rfl (fun _ => .failed) fun _ => ?_
  refine .ite Iff.rfl (fun _ => (version?_padded hrest).mono hle) fun _ => ?_
  exact .ite Iff.rfl (fun _ => (tagHandle?_padded hrest).mono hle) fun _ => .failed

end Directive

end Shortcode.Yaml
