import Shortcode.Proofs.Yaml.Names
import Shortcode.Proofs.Yaml.Outlines
import Shortcode.Proofs.Yaml.Scalars
import Shortcode.Yaml.Tokens

/-! # Tokens of padded texts

A padded text has the tokens of the text, unless the last one is a block scalar. -/

namespace Shortcode.Yaml

/-- Whether the last token is a block scalar, apart from the ends of blocks. -/
def endsInBlockScalar (ts : List Token) : Bool :=
  match (ts.reverse.dropWhile (· == .blockEnd)).head? with
  | some (.scalar style _) => style == .literal || style == .folded
  | _ => false

variable {start : Mark} {gs gs' : List Glyph} {inFlow inComment allowed : Bool}

theorem skipGap_cons {g : Glyph} (h : isFiller g.char = true) (gs : List Glyph) :
    skipGap inFlow inComment allowed (g :: gs) =
      skipGap inFlow (inComment && !isBreak g.char) (allowed || (isBreak g.char && !inFlow)) gs := by
  rw [skipGap]
  cases hbreak : isBreak g.char with
  | true => simp
  | false =>
    have hcomment : ¬ ' ' = '#' := by decide
    cases inComment <;> simp [eq_space_of_isFiller h hbreak, hcomment]

theorem skipGap_fillers (inFlow inComment allowed : Bool) (h : ∀ g ∈ gs, isFiller g.char = true) :
    ∃ allowed', skipGap inFlow inComment allowed gs = (allowed', []) := by
  induction gs generalizing inComment allowed with
  | nil => exact ⟨allowed, rfl⟩
  | cons g gs ih =>
    obtain ⟨hg, hgs⟩ := List.forall_mem_cons.mp h
    rw [skipGap_cons hg]
    exact ih _ _ hgs

theorem skipGap_padded (h : Padded start gs gs') :
    Alike start gs.length SameInside (some (skipGap inFlow inComment allowed gs))
      (some (skipGap inFlow inComment allowed gs')) := by
  induction h generalizing inComment allowed with
  | gap hfiller =>
    obtain ⟨allowed', hskip⟩ := skipGap_fillers inFlow inComment allowed hfiller
    rw [hskip]
    exact .read (.inl rfl) (.gap (by simp)) (Nat.le_refl _)
  | @cons g gs gs' hlast h ih =>
    have hle : gs.length ≤ gs.length + 1 := Nat.le_succ _
    simp only [skipGap, apply_ite some]
    refine .ite Iff.rfl (fun _ => ih.mono hle) fun _ => ?_
    refine .ite Iff.rfl (fun _ => ih.mono hle) fun _ => ?_
    refine .ite Iff.rfl (fun _ => ih.mono hle) fun _ => ?_
    refine .ite Iff.rfl (fun _ => ih.mono hle) fun _ => ?_
    exact .read (.inr rfl) (.cons hlast h) (Nat.le_refl _)

theorem isFiller_eq_false_of_mem_head?_skipGap {g : Glyph}
    (h : g ∈ (skipGap inFlow inComment allowed gs).2.head?) : isFiller g.char = false := by
  induction gs generalizing inComment allowed with
  | nil => cases h
  | cons d gs ih =>
    rw [skipGap] at h
    split at h
    · exact ih h
    · next hbreak =>
      split at h
      · exact ih h
      split at h
      · exact ih h
      split at h
      · exact ih h
      · next hskip =>
        have hspace : d.char ≠ ' ' := fun hspace => hskip (.inl hspace)
        cases h
        simp [isFiller, hbreak, hspace]

/-- The next token starts at the same character, unless there is none. -/
theorem skipGap_cases (inFlow allowed : Bool) (h : Padded start gs gs') :
    (∃ allowed₁ allowed₂, skipGap inFlow false allowed gs = (allowed₁, []) ∧
      skipGap inFlow false allowed gs' = (allowed₂, [])) ∨
    ∃ allowed' g rest rest', skipGap inFlow false allowed gs = (allowed', g :: rest) ∧
      skipGap inFlow false allowed gs' = (allowed', g.below start :: rest') ∧
      (rest = [] → isFiller g.char = false) ∧ Padded start rest rest' ∧
      rest.length < gs.length := by
  have hskip : Alike start gs.length SameInside (some (skipGap inFlow false allowed gs))
    (some (skipGap inFlow false allowed gs')) := skipGap_padded h
  have hstop : ∀ g ∈ (skipGap inFlow false allowed gs').2.head?, isFiller g.char = false :=
    fun _ => isFiller_eq_false_of_mem_head?_skipGap
  generalize skipGap inFlow false allowed gs = skipped at hskip
  generalize skipGap inFlow false allowed gs' = skipped' at hskip hstop
  obtain ⟨allowed₁, rest⟩ := skipped
  obtain ⟨allowed₂, rest'⟩ := skipped'
  rcases hskip with ⟨hallowed, hrest, hlength⟩
  dsimp only at hallowed hrest hlength hstop
  rcases hrest with hfiller | @⟨g, rest, rest', hlast, hrest⟩
  · cases rest' with
    | nil => exact .inl ⟨allowed₁, allowed₂, rfl, rfl⟩
    | cons g rest' =>
      have hg := hfiller g (List.mem_cons_self ..)
      rw [hstop g rfl] at hg
      cases hg
  · obtain rfl : allowed₂ = allowed₁ := hallowed.resolve_left (List.cons_ne_nil _ _)
    exact .inr ⟨allowed₂, g, rest, rest', rfl, rfl, hlast, hrest, hlength⟩

namespace Outline

variable {o : Outline} {g : Glyph} {n : Nat} {rest rest' : List Glyph}

/-- The outlines are the same, or finish in the same way at the end of the text if this is no block
scalar. -/
def Follows (start : Mark) (rest : List Glyph) (o o' : Outline) : Prop :=
  o' = o.below start ∨
    rest = [] ∧ (o.finish?.any endsInBlockScalar = false → o'.finish? = o.finish?)

/-- A step that is the same below reads the same. -/
theorem alike_of_below {x x' : Option Outline} (hx : x' = x.map (·.below start))
    (hrest : Padded start rest rest') (hlength : rest.length ≤ n) :
    Alike start n (Follows start) (do return (← x, rest)) (do return (← x', rest')) := by
  subst hx
  cases x with
  | none => exact .failed
  | some o => exact .read (.inl rfl) hrest hlength

/-- The last token of a text is the one before the ends of the blocks. -/
theorem finish?_add (o : Outline) (t : Token) : (o.add t).finish? = (forget? o.key?).map fun _ =>
    o.reversed.reverse ++
      t :: List.replicate (if o.inFlow then 0 else o.columns.length) .blockEnd := by
  rw [finish?_eq]
  simp [add, inFlow]

theorem endsInBlockScalar_append {ts : List Token} {style : Style} {text : Text} {n : Nat}
    (hstyle : style = .literal ∨ style = .folded) :
    endsInBlockScalar (ts ++ .scalar style text :: List.replicate n .blockEnd) = true := by
  have hends : (List.replicate n Token.blockEnd ++ .scalar style text :: ts.reverse).dropWhile
      (· == .blockEnd) = .scalar style text :: ts.reverse := by
    rw [List.dropWhile_append_of_pos (by simp [List.mem_replicate])]
    rfl
  unfold endsInBlockScalar
  rw [List.reverse_append, List.reverse_cons, List.append_assoc, List.singleton_append,
    List.reverse_replicate, hends]
  simpa using hstyle

/-- What an outline finishes with does not depend on a block scalar at the end, unless it ends in
it. -/
theorem finish?_blockScalar {style : Style} {text text' : Text}
    (hstyle : style = .literal ∨ style = .folded)
    (h : (o.add (.scalar style text)).finish?.any endsInBlockScalar = false) :
    ((o.below start).add (.scalar style text')).finish? =
      (o.add (.scalar style text)).finish? := by
  have hforget : forget? (o.below start).key? = (forget? o.key?).map _ := forget?_below o.key?
  rw [finish?_add] at h ⊢
  rw [finish?_add, hforget]
  cases hkey : forget? o.key? with
  | none => rfl
  | some key? =>
    rw [hkey] at h
    simp [endsInBlockScalar_append hstyle] at h

theorem scalar?_padded {m : Mark} {style : Style} {x x' : Option (Text × List Glyph)}
    (h : Alike start n Same x x') :
    Alike start n (Follows start) (o.scalar? m style x)
      ((o.below start).scalar? (m.below start) style x') := by
  refine h.bind fun text text' rest rest' hvalue hrest hlength => ?_
  cases hvalue
  exact alike_of_below below_word? hrest hlength

theorem plain?_padded (hdash : g.char = '-' → gs ≠ []) (h : Padded start gs gs') :
    Alike start gs.length (Follows start) (o.plain? g.mark (g :: gs))
      ((o.below start).plain? (g.below start).mark (g.below start :: gs')) := by
  unfold plain?
  rw [below_inFlow, below_columns, Plain.startsAt_padded h hdash]
  refine .ite Iff.rfl (fun _ => .failed) fun hstart => ?_
  refine (Plain.read?_padded (by simpa using hstart) hdash h).bind
    fun (text, endsLine) (text', endsLine') rest rest' hvalue hrest hlength => ?_
  obtain ⟨rfl, hend⟩ := hvalue
  dsimp only
  rw [Glyph.below_mark, below_word?]
  cases o.word? g.mark (.scalar .plain text') with
  | none => exact .failed
  | some o =>
    refine .read ?_ hrest hlength
    rcases hend with rfl | rfl
    · exact .inr ⟨rfl, fun _ => by rw [finish?_allowKey, finish?_allowKey, finish?_below]⟩
    · exact .inl rfl

theorem block?_padded {literal : Bool} (h : Padded start gs gs') :
    Alike start gs.length (Follows start) (o.block? literal gs)
      ((o.below start).block? literal gs') := by
  unfold block?
  rw [below_inFlow, below_columns]
  refine .ite Iff.rfl (fun _ => .failed) fun _ => ?_
  refine (Block.read?_padded h).bind fun text text' rest rest' hvalue hrest hlength => ?_
  dsimp only
  rcases hvalue with rfl | rfl
  · rw [blockScalar?, blockScalar?, below_dropKey?]
    cases o.dropKey? with
    | none => exact .failed
    | some o =>
      refine .read (.inr ⟨rfl, fun hend => ?_⟩) hrest hlength
      exact finish?_blockScalar (o := o.allowKey true) (by cases literal <;> simp) hend
  · exact alike_of_below below_blockScalar? hrest hlength

theorem next?_padded (hlast : gs = [] → isFiller g.char = false) (h : Padded start gs gs') :
    Alike start gs.length (Follows start) (o.next? (g :: gs))
      ((o.below start).next? (g.below start :: gs')) := by
  have hg := Padded.cons hlast h
  have hle := Nat.le_refl gs.length
  rw [next?, next?]
  refine .ite Iff.rfl (fun _ => ?_) fun _ => ?_
  · refine (Directive.read?_padded h).bind fun t _ rest rest' hvalue hrest hlength => ?_
    cases hvalue
    exact alike_of_below below_topLevel? hrest hlength
  have hdrop := List.drop_sublist 2 gs |>.length_le
  refine .ite (by rw [hg.atMarker (c := '-') (by decide)]) (fun hmarker => ?_) fun _ => ?_
  · exact alike_of_below below_topLevel? (h.drop (two_le_length_of_atMarker hmarker)) hdrop
  refine .ite (by rw [hg.atMarker (c := '.') (by decide)]) (fun hmarker => ?_) fun _ => ?_
  · exact alike_of_below below_topLevel? (h.drop (two_le_length_of_atMarker hmarker)) hdrop
  rw [Glyph.below_char]
  have hplain : (g.char = '-' → gs ≠ []) → _ := fun hdash => plain?_padded (o := o) hdash h
  generalize hchar : g.char = c at *
  split
  -- Brackets and commas.
  · exact alike_of_below below_openFlow? h hle
  · exact alike_of_below below_openFlow? h hle
  · exact alike_of_below below_closeFlow? h hle
  · exact alike_of_below below_closeFlow? h hle
  · exact alike_of_below below_comma? h hle
  -- Marks that are set off, and plain scalars that start with one.
  · refine .ite (by rw [h.atGap]) (fun _ => ?_) fun hgap => ?_
    · exact alike_of_below below_hyphen? h hle
    · refine hplain fun _ => ?_
      rintro rfl
      exact hgap rfl
  · refine .ite (by rw [h.atGap, below_inFlow]) (fun _ => ?_) fun _ => ?_
    · exact alike_of_below below_questionMark? h hle
    · exact hplain (absurd · (by decide))
  · refine .ite (by rw [h.atGap, below_inFlow]) (fun _ => ?_) fun _ => ?_
    · exact alike_of_below below_colon? h hle
    · exact hplain (absurd · (by decide))
  -- Names, tags and the other scalars.
  · refine (name?_padded h).bind fun name _ rest rest' hvalue hrest hlength => ?_
    cases hvalue
    exact alike_of_below below_word? hrest hlength
  · refine (name?_padded h).bind fun name _ rest rest' hvalue hrest hlength => ?_
    cases hvalue
    exact alike_of_below below_word? hrest hlength
  · rw [below_inFlow]
    refine (TagName.read?_padded o.inFlow h).bind fun name _ rest rest' hvalue hrest hlength => ?_
    cases hvalue
    exact alike_of_below below_word? hrest hlength
  · exact block?_padded h
  · exact block?_padded h
  · exact scalar?_padded (Quoted.single?_padded h)
  · exact scalar?_padded (Quoted.double?_padded h)
  · exact hplain fun hdash => absurd hdash ‹c = '-' → False›

/-- The tokens of the rest of a text are those of the rest of the padded one, of which as many are
read or more. -/
theorem tokens?_padded {n' : Nat} {o' : Outline} (ho : Follows start gs o o')
    (h : Padded start gs gs') (hn : gs.length < n) (hn' : n ≤ n')
    (hend : (o.tokens? n gs).any endsInBlockScalar = false) :
    o'.tokens? n' gs' = o.tokens? n gs := by
  induction n generalizing n' o o' gs gs' with
  | zero => exact absurd hn (Nat.not_lt_zero _)
  | succ n ih =>
    obtain ⟨n', rfl⟩ : ∃ k, n' = k + 1 := ⟨n' - 1, by omega⟩
    rcases ho with rfl | ⟨rfl, hfinish⟩
    · rw [tokens?] at hend
      rw [tokens?, tokens?, below_inFlow, below_keyAllowed]
      rcases skipGap_cases o.inFlow o.keyAllowed h with
        ⟨_, _, hskip, hskip'⟩ | ⟨allowed, g, rest, rest', hskip, hskip', hlast, hrest, hlength⟩
      · rw [hskip, hskip']
        exact finish?_below
      · rw [hskip] at hend
        rw [hskip, hskip']
        dsimp only at hend ⊢
        rw [below_allowKey, Glyph.below_mark, below_dropStale?]
        cases hdrop : (o.allowKey allowed).dropStale? g.mark with
        | none => rfl
        | some o =>
          rw [hdrop] at hend
          simp only [Option.map_some, Option.bind_eq_bind, Option.bind_some] at hend ⊢
          rw [Mark.below_column, below_closeBlocks]
          have hnext := next?_padded (o := o.closeBlocks (some g.mark.column)) hlast hrest
          generalize next? _ (g :: rest) = x at hnext hend
          generalize next? _ (g.below start :: rest') = x' at hnext
          rcases hnext with ⟨ho, hrest, hlength'⟩ | _
          · exact ih ho hrest (by omega) (by omega) hend
          · rfl
    · obtain ⟨allowed, hskip⟩ := skipGap_fillers o'.inFlow false o'.keyAllowed h.fillers
      rw [tokens?, hskip]
      exact hfinish hend

end Outline

end Shortcode.Yaml
