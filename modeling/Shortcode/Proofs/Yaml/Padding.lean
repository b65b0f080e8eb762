import Shortcode.Proofs.Text.Digits
import Shortcode.Yaml.Glyph

/-! # Padding

A text may be a part of a longer one that has whole lines in front of it, and spaces and line ends
behind it. Its characters then stand on lower lines and in the same columns, and the longer text
reads the same as long as a reader does not depend on what is behind the last character. -/

namespace Shortcode.Yaml

/-- A space or a line end. -/
def isFiller (c : Char) : Bool :=
  c == ' ' || isBreak c

/-- The position in a longer text of a position in its part that starts a line at `start`. -/
def Mark.below (m start : Mark) : Mark :=
  ⟨start.offset + m.offset, start.line + m.line, m.column⟩

/-- The character in a longer text whose part starts a line at `start`. -/
def Glyph.below (g : Glyph) (start : Mark) : Glyph :=
  ⟨g.char, g.mark.below start⟩

@[simp] theorem Mark.below_column (m start : Mark) : (m.below start).column = m.column := rfl

@[simp] theorem Glyph.below_char (g : Glyph) (start : Mark) : (g.below start).char = g.char := rfl

@[simp] theorem Glyph.below_mark (g : Glyph) (start : Mark) :
    (g.below start).mark = g.mark.below start := rfl

/-- The second characters are the first ones below `start` with fillers behind them. The last of the
first characters is no filler itself. -/
inductive Padded (start : Mark) : List Glyph → List Glyph → Prop where
  | gap {gs : List Glyph} (hfiller : ∀ g ∈ gs, isFiller g.char = true) : Padded start [] gs
  | cons {g : Glyph} {gs gs' : List Glyph} (hlast : gs = [] → isFiller g.char = false)
      (hrest : Padded start gs gs') : Padded start (g :: gs) (g.below start :: gs')

/-- What a reader reads of characters and of the padded ones: nothing of both, or values in the
relation `R`, which may depend on what remains, and remainders that are padded again. At most `n` of
the first characters remain. -/
def Alike {α β : Type} (start : Mark) (n : Nat) (R : List Glyph → α → β → Prop) :
    Option (α × List Glyph) → Option (β × List Glyph) → Prop :=
  Option.Rel fun x x' => R x.2 x.1 x'.1 ∧ Padded start x.2 x'.2 ∧ x.2.length ≤ n

/-- The values are the same. -/
def Same {α : Type} (_ : List Glyph) (a b : α) : Prop :=
  b = a

variable {start : Mark} {c : Char} {g : Glyph} {gs gs' : List Glyph} {n m : Nat}

/-- What holds for the space and for the line ends holds for every filler. -/
theorem of_isFiller {p : Char → Prop} (h : isFiller c = true)
    (hp : p ' ' ∧ p '\n' ∧ p '\r' ∧ p '\u0085' ∧ p '\u2028' ∧ p '\u2029') : p c := by
  obtain ⟨hspace, hfeed, hreturn, hnext, hline, hparagraph⟩ := hp
  have hc : c = ' ' ∨ c = '\n' ∨ c = '\r' ∨ c = '\u0085' ∨ c = '\u2028' ∨ c = '\u2029' := by
    simpa [isFiller, isBreak, or_assoc] using h
  rcases hc with rfl | rfl | rfl | rfl | rfl | rfl <;> assumption

theorem isFiller_of_isBreak (h : isBreak c = true) : isFiller c = true := by
  simp [isFiller, h]

theorem isSpace_eq_false_of_isBreak (h : isBreak c = true) : isSpace c = false := by
  unfold isBreak at h
  unfold isSpace
  grind

theorem eq_space_of_isFiller (h : isFiller c = true) (hbreak : isBreak c = false) : c = ' ' := by
  simpa [isFiller, hbreak] using h

theorem isSpace_or_isBreak_of_isFiller (h : isFiller c = true) :
    (isSpace c || isBreak c) = true :=
  of_isFiller (p := fun c => (isSpace c || isBreak c) = true) h (by decide)

theorem rel_bind {α β γ δ : Type} {r : α → β → Prop} {q : γ → δ → Prop} {x : Option α}
    {x' : Option β} {f : α → Option γ} {f' : β → Option δ} (h : Option.Rel r x x')
    (hf : ∀ a b, r a b → Option.Rel q (f a) (f' b)) : Option.Rel q (x >>= f) (x' >>= f') := by
  cases h with
  | some h => exact hf _ _ h
  | none => exact .none

theorem length_dropChars_le (p : Char → Bool) (gs : List Glyph) :
    (dropChars p gs).length ≤ gs.length :=
  (List.dropWhile_sublist _).length_le

theorem eq_false_of_mem_head?_dropChars {p : Char → Bool} (h : g ∈ (dropChars p gs).head?) :
    p g.char = false := by
  have hhead := List.head?_dropWhile_not (fun g : Glyph => p g.char) gs
  unfold dropChars at h
  rw [Option.mem_def.mp h] at hhead
  simpa using hhead

theorem length_dropComment_le (gs : List Glyph) : (dropComment gs).length ≤ gs.length := by
  unfold dropComment
  split
  · exact length_dropChars_le _ _
  · exact Nat.le_refl _

/-- Behind spaces and a comment comes no space. -/
theorem isSpace_eq_false_of_mem_head?_dropComment
    (h : g ∈ (dropComment (dropChars isSpace gs)).head?) : isSpace g.char = false := by
  unfold dropComment at h
  split at h
  · have hbreak := eq_false_of_mem_head?_dropChars h
    exact isSpace_eq_false_of_isBreak (by simpa using hbreak)
  · exact eq_false_of_mem_head?_dropChars h

theorem atMarker_eq_false {c : Char} (h : g.char ≠ c) : atMarker c (g :: gs) = false := by
  obtain ⟨d, m⟩ := g
  have hne : (d == c) = false := beq_eq_false_iff_ne.mpr h
  unfold atMarker
  split
  · next heq =>
    cases heq
    simp [hne]
  · rfl

theorem two_le_length_of_atMarker (h : atMarker c (g :: gs) = true) : 2 ≤ gs.length := by
  unfold atMarker at h
  split at h
  · next heq =>
    cases heq
    exact Nat.le_add_left 2 _
  · cases h

namespace Alike

variable {α β γ δ : Type} {R : List Glyph → α → β → Prop} {Q : List Glyph → γ → δ → Prop}
  {x : Option (α × List Glyph)} {x' : Option (β × List Glyph)}

theorem failed : Alike start n R none none :=
  .none

theorem read {a : α} {b : β} (hvalue : R gs a b) (hrest : Padded start gs gs')
    (hlength : gs.length ≤ n) : Alike start n R (some (a, gs)) (some (b, gs')) :=
  .some ⟨hvalue, hrest, hlength⟩

theorem bind {f : α × List Glyph → Option (γ × List Glyph)}
    {f' : β × List Glyph → Option (δ × List Glyph)} (h : Alike start n R x x')
    (hf : ∀ a b rest rest', R rest a b → Padded start rest rest' → rest.length ≤ n →
      Alike start m Q (f (a, rest)) (f' (b, rest'))) :
    Alike start m Q (x >>= f) (x' >>= f') :=
  rel_bind h fun _ _ ⟨hvalue, hrest, hlength⟩ => hf _ _ _ _ hvalue hrest hlength

theorem map {f : α × List Glyph → γ × List Glyph} {f' : β × List Glyph → δ × List Glyph}
    (h : Alike start n R x x')
    (hf : ∀ a b rest rest', R rest a b → Padded start rest rest' → rest.length ≤ n →
      Alike start m Q (some (f (a, rest))) (some (f' (b, rest')))) :
    Alike start m Q (x.map f) (x'.map f') := by
  rw [Option.map_eq_bind, Option.map_eq_bind]
  exact h.bind hf

theorem ite {p p' : Prop} [Decidable p] [Decidable p'] {y : Option (α × List Glyph)}
    {y' : Option (β × List Glyph)} (hp : p' ↔ p) (hx : p → Alike start n R x x')
    (hy : ¬ p → Alike start n R y y') :
    Alike start n R (if p then x else y) (if p' then x' else y') := by
  by_cases h : p
  · rw [if_pos h, if_pos (hp.mpr h)]
    exact hx h
  · rw [if_neg h, if_neg (mt hp.mp h)]
    exact hy h

theorem mono (h : Alike start n R x x') (hle : n ≤ m) : Alike start m R x x' := by
  rcases h with ⟨hvalue, hrest, hlength⟩ | _
  · exact read hvalue hrest (Nat.le_trans hlength hle)
  · exact failed

end Alike

namespace Padded

theorem fillers (h : Padded start [] gs) : ∀ g ∈ gs, isFiller g.char = true := by
  cases h with
  | gap hfiller => exact hfiller

theorem length_le (h : Padded start gs gs') : gs.length ≤ gs'.length := by
  induction h with
  | gap => exact Nat.zero_le _
  | cons _ _ ih => exact Nat.succ_le_succ ih

/-- What only looks at the first character does not tell a filler from the end of the text. -/
theorem head? {α : Type} {f : Option Char → α} (hf : ∀ c, isFiller c = true → f (some c) = f none)
    (h : Padded start gs gs') : f (gs'.head?.map Glyph.char) = f (gs.head?.map Glyph.char) := by
  cases h with
  | gap hfiller =>
    cases gs' with
    | nil => rfl
    | cons g gs' => exact hf _ (hfiller g (List.mem_cons_self ..))
  | cons => rfl

theorem head?_any {p : Char → Bool} (hp : ∀ c, isFiller c = true → p c = false)
    (h : Padded start gs gs') : gs'.head?.any (p ·.char) = gs.head?.any (p ·.char) := by
  have := h.head? (f := (·.any p)) hp
  rwa [Option.any_map, Option.any_map] at this

theorem head?_bind {α : Type} {f : Char → Option α} (hf : ∀ c, isFiller c = true → f c = none)
    (h : Padded start gs gs') : gs'.head?.bind (f ·.char) = gs.head?.bind (f ·.char) := by
  have := h.head? (f := (·.bind f)) hf
  rwa [Option.bind_map, Option.bind_map] at this

theorem atGap (h : Padded start gs gs') : Yaml.atGap gs' = Yaml.atGap gs := by
  have hhead : ∀ gs, Yaml.atGap gs =
      (gs.head?.map Glyph.char).all fun c => isSpace c || isBreak c := by
    intro gs
    cases gs <;> rfl
  rw [hhead, hhead]
  exact h.head? (f := (·.all _)) fun c => isSpace_or_isBreak_of_isFiller

theorem atSpace (h : Padded start gs gs') (hne : gs ≠ []) : Yaml.atSpace gs' = Yaml.atSpace gs := by
  cases h with
  | gap => exact absurd rfl hne
  | cons => rfl

/-- Both start with a character or neither does, if it is no filler. -/
theorem starts (hc : isFiller c = false) (h : Padded start gs gs') :
    (∃ m m' rest rest', gs = ⟨c, m⟩ :: rest ∧ gs' = ⟨c, m'⟩ :: rest' ∧ Padded start rest rest') ∨
      ((∀ m rest, gs = ⟨c, m⟩ :: rest → False) ∧ ∀ m rest, gs' = ⟨c, m⟩ :: rest → False) := by
  rcases h with hfiller | @⟨g, gs, gs', hlast, h⟩
  · refine .inr ⟨nofun, ?_⟩
    rintro m rest rfl
    have := hfiller ⟨c, m⟩ (List.mem_cons_self ..)
    rw [hc] at this
    cases this
  · obtain ⟨d, m⟩ := g
    by_cases hd : d = c
    · exact .inl ⟨m, m.below start, gs, gs', by rw [hd], by rw [hd]; rfl, h⟩
    · refine .inr ⟨?_, ?_⟩ <;>
      · rintro m rest heq
        cases heq
        exact hd rfl

theorem tail (h : Padded start gs gs') : Padded start gs.tail gs'.tail := by
  cases h with
  | gap hfiller => exact .gap fun g hg => hfiller g (List.mem_of_mem_tail hg)
  | cons _ hrest => exact hrest

/-- What is read of a number of characters in the text is read of as many in the padded one. -/
theorem take (h : Padded start gs gs') (hn : n ≤ gs.length) :
    textOf (gs'.take n) = textOf (gs.take n) := by
  induction h generalizing n with
  | gap => simp [Nat.le_zero.mp hn]
  | cons _ _ ih =>
    cases n with
    | zero => rfl
    | succ n => simpa [textOf] using ih (Nat.le_of_succ_le_succ hn)

theorem drop (h : Padded start gs gs') (hn : n ≤ gs.length) :
    Padded start (gs.drop n) (gs'.drop n) := by
  induction h generalizing n with
  | gap hfiller =>
    rw [Nat.le_zero.mp hn]
    exact .gap hfiller
  | cons hlast hrest ih =>
    cases n with
    | zero => exact .cons hlast hrest
    | succ n => exact ih (Nat.le_of_succ_le_succ hn)

/-- More characters than there are in the text hold a filler in the padded one. -/
theorem exists_filler_mem_take (h : Padded start gs gs') (hn : gs.length < n)
    (hn' : n ≤ gs'.length) : ∃ c ∈ textOf (gs'.take n), isFiller c = true := by
  induction h generalizing n with
  | @gap gs hfiller =>
    obtain ⟨n, rfl⟩ := Nat.exists_eq_succ_of_ne_zero (Nat.ne_of_gt hn)
    obtain ⟨g, gs, rfl⟩ := List.exists_cons_of_length_pos (Nat.zero_lt_of_lt hn')
    exact ⟨g.char, by simp [textOf], hfiller g (List.mem_cons_self ..)⟩
  | @cons g gs gs' _ _ ih =>
    obtain ⟨n, rfl⟩ := Nat.exists_eq_succ_of_ne_zero (Nat.ne_of_gt (Nat.zero_lt_of_lt hn))
    obtain ⟨c, hc, hfiller⟩ := ih (Nat.lt_of_succ_lt_succ hn) (Nat.le_of_succ_le_succ hn')
    exact ⟨c, List.mem_cons_of_mem _ hc, hfiller⟩

/-- Hexadecimal digits do not reach behind the last character. -/
theorem numeral?_take (h : Padded start gs gs') (hn : gs.length < n) (hn' : n ≤ gs'.length) :
    Text.numeral? 16 Text.hexDigit? (textOf (gs'.take n)) = none := by
  obtain ⟨c, hc, hfiller⟩ := h.exists_filler_mem_take hn hn'
  have hdigit : Text.hexDigit? c = none :=
    of_isFiller (p := fun c => Text.hexDigit? c = none) hfiller (by decide)
  exact Text.numeral?_eq_none hc hdigit

/-- The characters behind those for which `p` holds. -/
theorem dropChars (p : Char → Bool) (h : Padded start gs gs') :
    Padded start (Yaml.dropChars p gs) (Yaml.dropChars p gs') := by
  induction h with
  | gap hfiller => exact .gap fun g hg => hfiller g ((List.dropWhile_sublist _).mem hg)
  | @cons g gs gs' hlast hrest ih =>
    cases hp : p g.char with
    | true => simpa [Yaml.dropChars, hp] using ih
    | false => simpa [Yaml.dropChars, hp] using cons hlast hrest

theorem takeChars {p : Char → Bool} (hp : ∀ c, isFiller c = true → p c = false)
    (h : Padded start gs gs') : Yaml.takeChars p gs' = Yaml.takeChars p gs := by
  induction h with
  | @gap gs hfiller =>
    cases gs with
    | nil => rfl
    | cons g gs => simp [Yaml.takeChars, hp _ (hfiller g (List.mem_cons_self ..))]
  | @cons g gs gs' hlast hrest ih =>
    unfold Yaml.takeChars textOf at ih ⊢
    cases hp : p g.char with
    | true => simp [hp, ih]
    | false => simp [hp]

/-- A marker does not reach behind the last character, for no filler is part of one. -/
theorem atMarker (hc : isFiller c = false) (h : Padded start gs gs') :
    Yaml.atMarker c gs' = Yaml.atMarker c gs := by
  -- Fewer than three characters hold no marker, and neither do those with a filler behind them.
  have hshort : ∀ front {pad : List Glyph}, front.length < 3 →
      (∀ g ∈ pad, isFiller g.char = true) → Yaml.atMarker c (front ++ pad) = false := by
    intro front pad hlength hfiller
    have hne : ∀ g ∈ pad, (g.char == c) = false := by
      intro g hg
      refine beq_eq_false_iff_ne.mpr ?_
      rintro rfl
      rw [hfiller g hg] at hc
      cases hc
    match front, pad with
    | [], [] | [], [_] | [], [_, _] | [_], [] | [_], [_] | [_, _], [] => rfl
    | [], p :: _ :: _ :: _ => simp [Yaml.atMarker, hne p]
    | [_], p :: _ :: _ => simp [Yaml.atMarker, hne p]
    | [_, _], p :: _ => simp [Yaml.atMarker, hne p]
    | _ :: _ :: _ :: _, _ =>
      simp only [List.length_cons] at hlength
      omega
  rcases h with hfiller | @⟨g₁, _, _, _, h⟩
  · exact (hshort [] (by simp) hfiller).trans rfl
  rcases h with hfiller | @⟨g₂, _, _, _, h⟩
  · exact (hshort [g₁.below start] (by simp) hfiller).trans rfl
  rcases h with hfiller | @⟨g₃, _, _, _, h⟩
  · exact (hshort [g₁.below start, g₂.below start] (by simp) hfiller).trans rfl
  · simp only [Yaml.atMarker, Glyph.below, Mark.below_column, h.atGap]

theorem atDocumentMarker (h : Padded start gs gs') :
    Yaml.atDocumentMarker gs' = Yaml.atDocumentMarker gs := by
  unfold Yaml.atDocumentMarker
  rw [h.atMarker (c := '-') (by decide), h.atMarker (c := '.') (by decide)]

theorem dropComment (h : Padded start gs gs') :
    Padded start (Yaml.dropComment gs) (Yaml.dropComment gs') := by
  rcases h.starts (c := '#') (by decide) with ⟨m, m', rest, rest', rfl, rfl, -⟩ | ⟨hne, hne'⟩
  · exact h.dropChars (! isBreak ·)
  · rw [Yaml.dropComment.eq_2 _ hne, Yaml.dropComment.eq_2 _ hne']
    exact h

theorem afterLine? (h : Padded start gs gs') :
    Option.Rel (fun rest rest' => Padded start rest rest' ∧ rest.length ≤ gs.length)
      (Yaml.afterLine? gs) (Yaml.afterLine? gs') := by
  have hrest := (h.dropChars isSpace).dropComment
  have hlength : (Yaml.dropComment (Yaml.dropChars isSpace gs)).length ≤ gs.length :=
    Nat.le_trans (length_dropComment_le _) (length_dropChars_le _ _)
  have hhead : ∀ g ∈ (Yaml.dropComment (Yaml.dropChars isSpace gs')).head?,
      isSpace g.char = false := fun _ => isSpace_eq_false_of_mem_head?_dropComment
  unfold Yaml.afterLine?
  generalize Yaml.dropComment (Yaml.dropChars isSpace gs) = rest at hrest hlength
  generalize Yaml.dropComment (Yaml.dropChars isSpace gs') = rest' at hrest hhead
  rcases hrest with hfiller | @⟨g, _, _, hlast, hrest⟩
  · cases rest' with
    | nil => exact .some ⟨.gap hfiller, hlength⟩
    | cons g rest' =>
      have hbreak : isBreak g.char = true := by
        have := isSpace_or_isBreak_of_isFiller (hfiller g (List.mem_cons_self ..))
        simpa [hhead g rfl] using this
      simp only [hbreak, if_true]
      exact .some ⟨.gap fun g hg => hfiller g (List.mem_cons_of_mem _ hg), hlength⟩
  · simp only [Glyph.below_char]
    by_cases hbreak : isBreak g.char = true
    · simp only [hbreak, if_true]
      exact .some ⟨hrest, Nat.le_of_succ_le hlength⟩
    · simp only [hbreak]
      exact .none

end Padded

end Shortcode.Yaml
