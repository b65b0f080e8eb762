import Shortcode.Proofs.Yaml.Tokens

/-! # Margins of a text

Lines of spaces in front of a text, and spaces and line ends behind it, hold no tokens. They change
none either, apart from a block scalar at the end. -/

namespace Shortcode.Yaml

variable {start m : Mark} {front text back : Text} {c : Char}

/-- Induction over a text in which a line feed behind a carriage return is read with it. -/
theorem lineInduction {P : Text → Prop} (nil : P [])
    (crlf : ∀ text, P text → P ('\r' :: '\n' :: text))
    (cons : ∀ c text, (c = '\r' → text.head? ≠ some '\n') → P text → P (c :: text)) :
    ∀ text, P text
  | [] => nil
  | c :: text => by
    by_cases h : c = '\r' → text.head? ≠ some '\n'
    · exact cons c text h (lineInduction nil crlf cons text)
    · obtain ⟨rfl, hhead⟩ : c = '\r' ∧ text.head? = some '\n' := by simpa using h
      obtain ⟨rest, rfl⟩ : ∃ rest, text = '\n' :: rest := by
        cases text with
        | nil => cases hhead
        | cons d rest =>
          cases hhead
          exact ⟨rest, rfl⟩
      exact crlf rest (lineInduction nil crlf cons rest)

theorem mem_getLast?_cons {d : Char} (h : c ∈ text.getLast?) : c ∈ (d :: text).getLast? := by
  cases text with
  | nil => cases h
  | cons e text => rwa [List.getLast?_cons_cons]

/-- The position behind a character. -/
def Mark.behind (m : Mark) (c : Char) : Mark :=
  if isBreak c then m.nextLine c.utf8Size else m.next c

theorem Mark.below_nextLine (size : Nat) :
    (m.below start).nextLine size = (m.nextLine size).below start := by
  simp [Mark.below, Mark.nextLine, Nat.add_assoc]

theorem Mark.below_behind : (m.below start).behind c = (m.behind c).below start := by
  unfold Mark.behind
  split
  · exact below_nextLine _
  · simp [Mark.below, Mark.next, Nat.add_assoc]

namespace Glyph

/-- The character of a text at a position. -/
def ofChar (m : Mark) (c : Char) : Glyph :=
  ⟨if isBreak c = true ∧ c ≠ '\u2028' ∧ c ≠ '\u2029' then '\n' else c, m⟩

theorem isFiller_ofChar : isFiller (ofChar m c).char = isFiller c := by
  unfold ofChar
  dsimp only
  split
  · next h =>
    rw [isFiller_of_isBreak h.1]
    rfl
  · rfl

theorem ofTextAt_crlf (m : Mark) (text : Text) :
    ofTextAt m ('\r' :: '\n' :: text) = ⟨'\n', m⟩ :: ofTextAt (m.nextLine 2) text :=
  ofTextAt.eq_2 ..

theorem ofTextAt_cons (m : Mark) (h : c = '\r' → text.head? ≠ some '\n') :
    ofTextAt m (c :: text) = ofChar m c :: ofTextAt (m.behind c) text := by
  have hcrlf : ∀ rest, c = '\r' → text = '\n' :: rest → False := by
    rintro rest rfl rfl
    exact h rfl rfl
  rw [ofTextAt.eq_3 _ _ _ hcrlf]
  unfold ofChar Mark.behind
  by_cases hseparator : c = '\u2028' ∨ c = '\u2029'
  · have hbreak : isBreak c = true := by rcases hseparator with rfl | rfl <;> rfl
    have hkept : ¬ (isBreak c = true ∧ c ≠ '\u2028' ∧ c ≠ '\u2029') := by
      rintro ⟨-, hline, hparagraph⟩
      exact hseparator.elim hline hparagraph
    rw [if_pos hseparator, if_neg hkept, if_pos hbreak]
  · obtain ⟨hline, hparagraph⟩ := not_or.mp hseparator
    rw [if_neg hseparator]
    split
    · next hbreak => rw [if_pos ⟨hbreak, hline, hparagraph⟩]
    · next hbreak => rw [if_neg fun hand => hbreak hand.1]

theorem ofTextAt_eq_nil (h : ofTextAt m text = []) : text = [] := by
  induction text using lineInduction with
  | nil => rfl
  | crlf text _ =>
    rw [ofTextAt_crlf] at h
    cases h
  | cons c text hcrlf _ =>
    rw [ofTextAt_cons m hcrlf] at h
    cases h

theorem isFiller_of_mem_ofTextAt (h : ∀ c ∈ text, isFiller c = true) :
    ∀ g ∈ ofTextAt m text, isFiller g.char = true := by
  induction text using lineInduction generalizing m with
  | nil => exact nofun
  | crlf text ih =>
    rw [ofTextAt_crlf, List.forall_mem_cons]
    exact ⟨rfl, ih fun c hc => h c (List.mem_cons_of_mem _ (List.mem_cons_of_mem _ hc))⟩
  | cons c text hcrlf ih =>
    obtain ⟨hc, htext⟩ := List.forall_mem_cons.mp h
    rw [ofTextAt_cons m hcrlf, List.forall_mem_cons, isFiller_ofChar]
    exact ⟨hc, ih htext⟩

/-- A text is padded by what is behind it. -/
theorem ofTextAt_padded (hlast : ∀ c ∈ text.getLast?, isFiller c = false)
    (hback : ∀ c ∈ back, isFiller c = true) :
    Padded start (ofTextAt m text) (ofTextAt (m.below start) (text ++ back)) := by
  induction text using lineInduction generalizing m with
  | nil => exact .gap (isFiller_of_mem_ofTextAt hback)
  | crlf text ih =>
    have hne : text ≠ [] := by
      rintro rfl
      cases hlast '\n' rfl
    rw [List.cons_append, List.cons_append, ofTextAt_crlf, ofTextAt_crlf, Mark.below_nextLine]
    refine .cons (fun h => absurd (ofTextAt_eq_nil h) hne) (ih fun c hc => hlast c ?_)
    exact mem_getLast?_cons (mem_getLast?_cons hc)
  | cons c text hcrlf ih =>
    have hcrlf' : c = '\r' → (text ++ back).head? ≠ some '\n' := by
      rintro rfl
      cases text with
      | nil => cases hlast '\r' rfl
      | cons d text => exact hcrlf rfl
    rw [List.cons_append, ofTextAt_cons m hcrlf, ofTextAt_cons _ hcrlf', Mark.below_behind]
    refine .cons (fun h => ?_) (ih fun c hc => hlast c (mem_getLast?_cons hc))
    rw [ofTextAt_eq_nil h] at hlast
    rw [isFiller_ofChar]
    exact hlast c rfl

/-- Whole lines of spaces in front of a text move it down. -/
theorem ofTextAt_append (hfront : ∀ c ∈ front, isFiller c = true)
    (hflush : ∀ c ∈ front.getLast?, isBreak c = true) (hstart : front = [] → m.column = 0)
    (htext : ∀ c ∈ text.head?, isFiller c = false) :
    ∃ gs start, ofTextAt m (front ++ text) = gs ++ ofTextAt start text ∧ start.column = 0 ∧
      ∀ g ∈ gs, isFiller g.char = true := by
  induction front using lineInduction generalizing m with
  | nil => exact ⟨[], m, rfl, hstart rfl, nofun⟩
  | crlf front ih =>
    have hbehind : front = [] → (m.nextLine 2).column = 0 := fun _ => rfl
    obtain ⟨gs, start, htext, hcolumn, hgs⟩ := ih
      (fun c hc => hfront c (List.mem_cons_of_mem _ (List.mem_cons_of_mem _ hc)))
      (fun c hc => hflush c (mem_getLast?_cons (mem_getLast?_cons hc))) hbehind
    refine ⟨⟨'\n', m⟩ :: gs, start, ?_, hcolumn, List.forall_mem_cons.mpr ⟨rfl, hgs⟩⟩
    rw [List.cons_append, List.cons_append, ofTextAt_crlf, htext, List.cons_append]
  | cons c front hcrlf ih =>
    obtain ⟨hc, hfront⟩ := List.forall_mem_cons.mp hfront
    have hcrlf' : c = '\r' → (front ++ text).head? ≠ some '\n' := by
      intro hreturn
      cases front with
      | nil =>
        intro hfeed
        cases htext '\n' hfeed
      | cons d front => exact hcrlf hreturn
    have hbehind : front = [] → (m.behind c).column = 0 := by
      rintro rfl
      rw [Mark.behind, if_pos (hflush c rfl)]
      rfl
    obtain ⟨gs, start, htext, hcolumn, hgs⟩ := ih hfront
      (fun c hc => hflush c (mem_getLast?_cons hc)) hbehind
    refine ⟨ofChar m c :: gs, start, ?_, hcolumn, List.forall_mem_cons.mpr ⟨?_, hgs⟩⟩
    · rw [List.cons_append, ofTextAt_cons m hcrlf', htext, List.cons_append]
    · rw [isFiller_ofChar]
      exact hc

end Glyph

theorem skipGap_append {gs : List Glyph} (hfront : ∀ g ∈ gs, isFiller g.char = true)
    (rest : List Glyph) : skipGap false false true (gs ++ rest) = skipGap false false true rest := by
  induction gs with
  | nil => rfl
  | cons g gs ih =>
    obtain ⟨hg, hgs⟩ := List.forall_mem_cons.mp hfront
    rw [List.cons_append, skipGap_cons hg]
    exact ih hgs

/-- The margins of a text change none of its tokens, unless it ends in a block scalar. -/
theorem tokens?_margins (hfront : ∀ c ∈ front, isFiller c = true)
    (hflush : ∀ c ∈ front.getLast?, isBreak c = true) (hback : ∀ c ∈ back, isFiller c = true)
    (hfirst : ∀ c ∈ (text ++ back).head?, isFiller c = false)
    (hlast : ∀ c ∈ text.getLast?, isFiller c = false)
    (hend : (tokens? text).any endsInBlockScalar = false) :
    tokens? (front ++ (text ++ back)) = tokens? text := by
  have hpermitted : ∀ part : Text, (∀ c ∈ part, isFiller c = true) → part.all isPermitted = true :=
    fun part hpart => List.all_eq_true.mpr fun c hc =>
      of_isFiller (p := fun c => isPermitted c = true) (hpart c hc) (by decide)
  unfold tokens? Glyph.ofText? at hend ⊢
  rw [List.all_append, List.all_append, hpermitted front hfront, hpermitted back hback,
    Bool.true_and, Bool.and_true]
  cases hall : text.all isPermitted with
  | false => rfl
  | true =>
    obtain ⟨gs, start, hgs, hcolumn, hfillers⟩ :=
      Glyph.ofTextAt_append (m := {}) hfront hflush (fun _ => rfl) hfirst
    have hstart : ({} : Mark).below start = start := by
      obtain ⟨offset, line, column⟩ := start
      cases hcolumn
      rfl
    have hpadded : Padded start (Glyph.ofTextAt {} text)
        (Glyph.ofTextAt (({} : Mark).below start) (text ++ back)) :=
      Glyph.ofTextAt_padded hlast hback
    rw [hstart] at hpadded
    have hskip : ∀ rest, skipGap ({} : Outline).inFlow false ({} : Outline).keyAllowed (gs ++ rest) =
        skipGap ({} : Outline).inFlow false ({} : Outline).keyAllowed rest := skipGap_append hfillers
    have hlength := hpadded.length_le
    rw [hall] at hend
    simp only [if_true, Option.bind_some] at hend ⊢
    rw [hgs, Outline.tokens?, hskip, ← Outline.tokens?]
    refine Outline.tokens?_padded (.inl rfl) hpadded (Nat.lt_succ_self _) ?_ hend
    rw [List.length_append]
    omega

end Shortcode.Yaml
