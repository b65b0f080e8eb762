import Shortcode.Proofs.Yaml.Padding
import Shortcode.Yaml.Scalar.Block
import Shortcode.Yaml.Scalar.Plain
import Shortcode.Yaml.Scalar.Quoted

/-! # Scalars in padded texts

A plain or a quoted scalar is the same text in a padded text. A block scalar is so unless it ends the
text: what is behind it then belongs to it. -/

namespace Shortcode.Yaml

/-- The values are the same, unless the text ends behind them. -/
def SameInside {α : Type} (rest : List Glyph) (a b : α) : Prop :=
  rest = [] ∨ b = a

variable {start : Mark} {gs gs' : List Glyph}

namespace Plain

variable {ctx : Plain.Context} {gap : Gap}

theorem readFrom?_fillers (ctx : Context) (gap : Gap) (h : ∀ g ∈ gs, isFiller g.char = true) :
    ∃ last, readFrom? ctx gap gs = some (([], last), []) := by
  induction gs generalizing gap with
  | nil => exact ⟨gap, rfl⟩
  | cons g gs ih =>
    obtain ⟨hg, hgs⟩ := List.forall_mem_cons.mp h
    cases hbreak : isBreak g.char with
    | true =>
      simp only [readFrom?, isSpace_eq_false_of_isBreak hbreak, hbreak, if_true]
      exact ih _ hgs
    | false =>
      have hspace := eq_space_of_isFiller hg hbreak
      have hnotTab : ¬ ' ' = '\t' := by decide
      simp only [readFrom?, hspace, hnotTab, false_and, if_false, isSpace]
      exact ih _ hgs

theorem isStray_padded {inFlow : Bool} {c : Char} (h : Padded start gs gs') :
    isStray inFlow c gs' = isStray inFlow c gs := by
  have hhead : ∀ gs, isStray inFlow c gs =
      (inFlow && c == ':' && gs.head?.any fun g => isFlowMark g.char || g.char == '?') := by
    intro gs
    cases gs <;> rfl
  rw [hhead, hhead, h.head?_any (p := fun c => isFlowMark c || c == '?')]
  exact fun c hc => of_isFiller (p := fun c => (isFlowMark c || c == '?') = false) hc (by decide)

theorem endsAfter_padded {g : Glyph} (hlast : gs = [] → isFiller g.char = false)
    (h : Padded start gs gs') :
    endsAfter ctx gap (g.below start :: gs') = endsAfter ctx gap (g :: gs) := by
  unfold endsAfter
  rw [(Padded.cons hlast h).atDocumentMarker]
  rfl

theorem readFrom?_padded (h : Padded start gs gs') :
    Alike start gs.length (fun rest a b => b.1 = a.1 ∧ SameInside rest a.2 b.2)
      (readFrom? ctx gap gs) (readFrom? ctx gap gs') := by
  induction h generalizing gap with
  | gap hfiller =>
    obtain ⟨last, hlast⟩ := readFrom?_fillers ctx gap hfiller
    rw [hlast]
    exact .read ⟨rfl, .inl rfl⟩ (.gap (by simp)) (Nat.le_refl _)
  | @cons g gs gs' hlast h ih =>
    have hstop : Alike start (gs.length + 1) (fun rest a b => b.1 = a.1 ∧ SameInside rest a.2 b.2)
        (some ((([] : Text), gap), g :: gs)) (some (([], gap), g.below start :: gs')) :=
      .read ⟨rfl, .inr rfl⟩ (.cons hlast h) (Nat.le_refl _)
    unfold readFrom?
    refine .ite Iff.rfl (fun _ => ?_) fun _ => ?_
    · exact .ite Iff.rfl (fun _ => .failed) fun _ => ih.mono (Nat.le_succ _)
    refine .ite Iff.rfl (fun _ => ih.mono (Nat.le_succ _)) fun _ => ?_
    refine .ite (by rw [endsAfter_padded hlast h]) (fun _ => hstop) fun _ => ?_
    refine .ite (by rw [isStray_padded h]; rfl) (fun _ => .failed) fun _ => ?_
    refine .ite (by rw [endsBefore, h.atGap]; rfl) (fun _ => hstop) fun _ => ?_
    refine ih.map fun a b rest rest' hvalue hrest hlength => ?_
    refine .read ⟨?_, hvalue.2⟩ hrest (Nat.le_succ_of_le hlength)
    exact congrArg (gap.text ++ g.char :: ·) hvalue.1

theorem startsAt_padded {inFlow : Bool} {g : Glyph} (h : Padded start gs gs')
    (hdash : g.char = '-' → gs ≠ []) :
    startsAt inFlow (g.below start :: gs') = startsAt inFlow (g :: gs) := by
  unfold startsAt
  dsimp only
  rw [Glyph.below_char, h.atGap]
  split
  · next hg => rw [h.atSpace (hdash hg)]
  · rfl

theorem not_ends_of_startsAt {inFlow : Bool} {g : Glyph}
    (hstart : startsAt inFlow (g :: gs) = true) :
    isSpace g.char = false ∧ isBreak g.char = false ∧ endsBefore inFlow g.char gs = false := by
  rw [startsAt] at hstart
  split at hstart
  · next hdash =>
    rw [hdash]
    exact ⟨rfl, rfl, by simp [endsBefore, isFlowMark]⟩
  split at hstart
  · next hmark =>
    obtain ⟨rfl, hgap⟩ : inFlow = false ∧ atGap gs = false := by simpa using hstart
    rcases hmark with hmark | hmark
    · rw [hmark, endsBefore, hgap]
      exact ⟨rfl, rfl, rfl⟩
    · rw [hmark, endsBefore, hgap]
      exact ⟨rfl, rfl, rfl⟩
  · next hmark =>
    have hcolon : g.char ≠ ':' := fun hcolon => hmark (.inr hcolon)
    simp only [Bool.and_eq_true, Bool.not_eq_true', atGap, Bool.or_eq_false_iff] at hstart
    simp [endsBefore, hstart, hcolon]

/-- A scalar that can start at a character holds it. -/
theorem readFrom?_of_startsAt {g : Glyph} (hstart : startsAt ctx.inFlow (g :: gs) = true) :
    readFrom? ctx .none (g :: gs) =
      if isStray ctx.inFlow g.char gs then none
      else (readFrom? ctx .none gs).map fun ((text, last), rest) => ((g.char :: text, last), rest) := by
  obtain ⟨hspace, hbreak, hends⟩ := not_ends_of_startsAt hstart
  rw [readFrom?, hspace, hbreak, hends]
  simp [endsAfter]

theorem read?_padded {g : Glyph} (hstart : startsAt ctx.inFlow (g :: gs) = true)
    (hdash : g.char = '-' → gs ≠ []) (h : Padded start gs gs') :
    Alike start gs.length (fun rest a b => b.1 = a.1 ∧ SameInside rest a.2 b.2)
      (read? ctx (g :: gs)) (read? ctx (g.below start :: gs')) := by
  unfold read?
  rw [readFrom?_of_startsAt hstart,
    readFrom?_of_startsAt ((startsAt_padded h hdash).trans hstart), Glyph.below_char,
    isStray_padded h]
  split
  · exact .failed
  · rw [Option.map_map, Option.map_map]
    refine (readFrom?_padded h).map fun a b rest rest' hvalue hrest hlength => ?_
    refine .read ⟨congrArg (g.char :: ·) hvalue.1, ?_⟩ hrest hlength
    exact hvalue.2.imp_right (congrArg Gap.isLines)

end Plain

namespace Quoted

variable {gap : Gap} {c? : Option Char} {g : Glyph}

theorem before_alike {n m : Nat} {x x' : Option (Text × List Glyph)} (h : Alike start n Same x x')
    (hle : n ≤ m) : Alike start m Same (before gap c? x) (before gap c? x') := by
  cases c? with
  | none => exact .failed
  | some c =>
    refine h.bind fun text text' rest rest' hvalue hrest hlength => ?_
    exact .read (congrArg (gap.text ++ c :: ·) hvalue) hrest (Nat.le_trans hlength hle)

theorem single?_cons (gap : Gap) (g : Glyph) (gs : List Glyph) :
    single? gap (g :: gs) =
      if isSpace g.char then single? (gap.space g.char) gs
      else if isBreak g.char then single? (gap.line g.char) gs
      else if atDocumentMarker (g :: gs) then none
      else if g.char = '\'' then
        if gs.head?.any (·.char == '\'') then before gap (some '\'') (single? .none gs.tail)
        else some (gap.text, gs)
      else before gap (some g.char) (single? .none gs) := by
  obtain ⟨c, m⟩ := g
  by_cases hc : c = '\''
  · subst hc
    have hmarker : atDocumentMarker (⟨'\'', m⟩ :: gs) = false := by
      simp [atDocumentMarker, atMarker_eq_false]
    rcases gs with _ | ⟨⟨d, m'⟩, gs⟩
    · rfl
    · by_cases hd : d = '\''
      · subst hd
        simp [single?, isSpace, isBreak, hmarker]
      · rw [single?]
        · simp [isSpace, isBreak, hmarker, hd]
        · rintro _ _ _ - heq
          cases heq
          exact hd rfl
  · rw [single?]
    · simp [hc]
    · rintro _ _ _ heq -
      cases heq
      exact hc rfl

theorem single?_fillers (h : ∀ g ∈ gs, isFiller g.char = true) : single? gap gs = none := by
  induction gs generalizing gap with
  | nil => rfl
  | cons g gs ih =>
    obtain ⟨hg, hgs⟩ := List.forall_mem_cons.mp h
    rw [single?_cons]
    split
    · exact ih hgs
    · split
      · exact ih hgs
      · have := isSpace_or_isBreak_of_isFiller hg
        simp_all

/-- The number of hexadecimal digits behind the letter of an escape. -/
def hexLength? : Char → Option Nat
  | 'x' => some 2
  | 'u' => some 4
  | 'U' => some 8
  | _ => none

/-- The rest of a scalar behind a backslash. -/
def escape? (gap : Gap) : List Glyph → Option (Text × List Glyph)
  | [] => none
  | e :: gs =>
    match hexLength? e.char with
    | some n =>
      if n ≤ gs.length then
        before gap (Text.charOfHex? (textOf (gs.take n))) (double? .none (gs.drop n))
      else none
    | none =>
      if isBreak e.char then
        (double? (.lines none []) gs).map fun (text, rest) => (gap.text ++ text, rest)
      else before gap (escaped? e.char) (double? .none gs)

theorem double?_backslash (gap : Gap) (m : Mark) (gs : List Glyph) :
    double? gap (⟨'\\', m⟩ :: gs) = escape? gap gs := by
  rcases gs with _ | ⟨⟨e, m'⟩, gs⟩
  · rfl
  by_cases hx : e = 'x'
  · subst hx
    rcases gs with _ | ⟨a, _ | ⟨b, gs⟩⟩ <;>
      simp [double?, escape?, hexLength?, isBreak, escaped?, before]
  by_cases hu : e = 'u'
  · subst hu
    rcases gs with _ | ⟨a, _ | ⟨b, _ | ⟨c, _ | ⟨d, gs⟩⟩⟩⟩ <;>
      simp [double?, escape?, hexLength?, isBreak, escaped?, before]
  by_cases hU : e = 'U'
  · subst hU
    rcases gs with _ | ⟨a, _ | ⟨b, _ | ⟨c, _ | ⟨d, _ | ⟨e, _ | ⟨f, _ | ⟨g, _ | ⟨h, gs⟩⟩⟩⟩⟩⟩⟩⟩ <;>
      simp [double?, escape?, hexLength?, isBreak, escaped?, before]
  have hlength : hexLength? e = none := by
    unfold hexLength?
    split <;> first | contradiction | rfl
  rw [double?.eq_5]
  · simp [escape?, hlength]
  · rintro _ _ _ _ heq -
    cases heq
    exact hx rfl
  · rintro _ _ _ _ _ _ heq -
    cases heq
    exact hu rfl
  · rintro _ _ _ _ _ _ _ _ _ _ heq -
    cases heq
    exact hU rfl

theorem double?_cons (gap : Gap) (g : Glyph) (gs : List Glyph) :
    double? gap (g :: gs) =
      if isSpace g.char then double? (gap.space g.char) gs
      else if isBreak g.char then double? (gap.line g.char) gs
      else if atDocumentMarker (g :: gs) then none
      else if g.char = '"' then some (gap.text, gs)
      else if g.char = '\\' then escape? gap gs
      else before gap (some g.char) (double? .none gs) := by
  obtain ⟨c, m⟩ := g
  by_cases hc : c = '\\'
  · subst hc
    rw [double?_backslash]
    simp [isSpace, isBreak, atDocumentMarker, atMarker_eq_false]
  · rw [double?.eq_6]
    · simp [hc]
    · rintro _ _ _ _ _ heq -
      cases heq
      exact hc rfl
    · rintro _ _ _ _ _ _ _ heq -
      cases heq
      exact hc rfl
    · rintro _ _ _ _ _ _ _ _ _ _ _ heq -
      cases heq
      exact hc rfl
    · rintro _ _ _ heq -
      cases heq
      exact hc rfl

theorem double?_fillers (h : ∀ g ∈ gs, isFiller g.char = true) : double? gap gs = none := by
  induction gs generalizing gap with
  | nil => rfl
  | cons g gs ih =>
    obtain ⟨hg, hgs⟩ := List.forall_mem_cons.mp h
    rw [double?_cons]
    split
    · exact ih hgs
    · split
      · exact ih hgs
      · have := isSpace_or_isBreak_of_isFiller hg
        simp_all

theorem single?_padded (h : Padded start gs gs') :
    Alike start gs.length Same (single? gap gs) (single? gap gs') := by
  induction hn : gs.length using Nat.strongRecOn generalizing gs gs' gap with
  | ind n ih =>
  rcases h with hfiller | @⟨g, gs, gs', hlast, h⟩
  · rw [single?_fillers hfiller]
    exact .failed
  rw [List.length_cons] at hn
  have hrest : ∀ gap, Alike start n Same (single? gap gs) (single? gap gs') := by
    intro gap
    exact (ih gs.length (by omega) h rfl).mono (by omega)
  have hmarker := (Padded.cons hlast h).atDocumentMarker
  rw [single?_cons, single?_cons]
  refine .ite Iff.rfl (fun _ => hrest _) fun _ => ?_
  refine .ite Iff.rfl (fun _ => hrest _) fun _ => ?_
  refine .ite (by rw [hmarker]) (fun _ => .failed) fun _ => ?_
  refine .ite Iff.rfl (fun _ => ?_) fun _ => before_alike (hrest _) (Nat.le_refl _)
  have hquote := h.head?_any (p := (· == '\'')) fun c hc =>
    of_isFiller (p := fun c => (c == '\'') = false) hc (by decide)
  have htail : gs.tail.length ≤ gs.length := by simp
  refine .ite (by rw [hquote]) (fun _ => ?_) fun _ => .read rfl h (by omega)
  exact before_alike (ih _ (by omega) h.tail rfl) (by omega)

theorem escape?_padded (h : Padded start gs gs')
    (ih : ∀ {gs₁ gs₁' : List Glyph} (gap : Gap), gs₁.length ≤ gs.length → Padded start gs₁ gs₁' →
      Alike start gs₁.length Same (double? gap gs₁) (double? gap gs₁')) :
    Alike start gs.length Same (escape? gap gs) (escape? gap gs') := by
  rcases h with hfiller | @⟨e, gs, gs', hlast, h⟩
  · cases gs' with
    | nil => exact .failed
    | cons e gs' =>
      obtain ⟨he, hgs'⟩ := List.forall_mem_cons.mp hfiller
      have hlength : hexLength? e.char = none :=
        of_isFiller (p := fun c => hexLength? c = none) he (by decide)
      rw [escape?, escape?, hlength]
      dsimp only
      rw [double?_fillers hgs', double?_fillers hgs']
      split
      · exact .failed
      · cases escaped? e.char <;> exact .failed
  have hle : gs.length ≤ gs.length + 1 := Nat.le_succ _
  rw [escape?, escape?, Glyph.below_char]
  cases hexLength? e.char with
  | some n =>
    dsimp only
    by_cases hn : n ≤ gs.length
    · have hdrop := List.length_drop (i := n) (l := gs)
      rw [if_pos hn, if_pos (Nat.le_trans hn h.length_le), h.take hn]
      refine before_alike (ih _ ?_ (h.drop hn)) ?_ <;> rw [List.length_cons] <;> omega
    · rw [if_neg hn]
      by_cases hn' : n ≤ gs'.length
      · rw [if_pos hn', Text.charOfHex?, h.numeral?_take (Nat.lt_of_not_le hn) hn']
        exact .failed
      · rw [if_neg hn']
        exact .failed
  | none =>
    dsimp only
    refine .ite Iff.rfl (fun _ => ?_) fun _ => before_alike (ih _ hle h) hle
    refine (ih _ hle h).map fun a b rest rest' hvalue hrest hlength => ?_
    exact .read (congrArg (gap.text ++ ·) hvalue) hrest (Nat.le_succ_of_le hlength)

theorem double?_padded (h : Padded start gs gs') :
    Alike start gs.length Same (double? gap gs) (double? gap gs') := by
  induction hn : gs.length using Nat.strongRecOn generalizing gs gs' gap with
  | ind n ih =>
  rcases h with hfiller | @⟨g, gs, gs', hlast, h⟩
  · rw [double?_fillers hfiller]
    exact .failed
  rw [List.length_cons] at hn
  have hrest : ∀ gap, Alike start n Same (double? gap gs) (double? gap gs') := by
    intro gap
    exact (ih gs.length (by omega) h rfl).mono (by omega)
  have hmarker := (Padded.cons hlast h).atDocumentMarker
  rw [double?_cons, double?_cons]
  refine .ite Iff.rfl (fun _ => hrest _) fun _ => ?_
  refine .ite Iff.rfl (fun _ => hrest _) fun _ => ?_
  refine .ite (by rw [hmarker]) (fun _ => .failed) fun _ => ?_
  refine .ite Iff.rfl (fun _ => .read rfl h (by omega)) fun _ => ?_
  refine .ite Iff.rfl (fun _ => ?_) fun _ => before_alike (hrest _) (Nat.le_refl _)
  refine (escape?_padded h fun gap hle h => ?_).mono (by omega)
  exact ih _ (by omega) h rfl

end Quoted

namespace Block

variable {l : Layout} {spaced : Bool} {b? : Option Break} {least : Nat}

theorem chomping?_eq_none_of_isFiller (c : Char) (h : isFiller c = true) : chomping? c = none :=
  of_isFiller (p := fun c => chomping? c = none) h (by decide)

theorem digit?_eq_none_of_isFiller (c : Char) (h : isFiller c = true) : Text.digit? c = none :=
  of_isFiller (p := fun c => Text.digit? c = none) h (by decide)

theorem writesZero_eq (gs : List Glyph) :
    writesZero gs = (gs.head?.any (·.char == '0') ||
      ((gs.head?.bind (chomping? ·.char)).isSome && gs.tail.head?.any (·.char == '0'))) := by
  rcases gs with _ | ⟨⟨c, m⟩, _ | ⟨⟨d, m'⟩, gs⟩⟩
  · rfl
  · by_cases hc : c = '0'
    · subst hc
      rfl
    · simp [writesZero, textOf, hc]
  · by_cases hc : c = '0'
    · subst hc
      rfl
    · by_cases hd : d = '0'
      · subst hd
        simp [writesZero, textOf, hc]
      · simp [writesZero, textOf, hc, hd]

theorem writesZero_padded (h : Padded start gs gs') : writesZero gs' = writesZero gs := by
  have hzero : ∀ c, isFiller c = true → (c == '0') = false := fun c hc =>
    of_isFiller (p := fun c => (c == '0') = false) hc (by decide)
  rw [writesZero_eq, writesZero_eq, h.head?_any hzero, h.tail.head?_any hzero,
    h.head?_bind chomping?_eq_none_of_isFiller]

theorem signs_eq (gs : List Glyph) :
    signs gs = match gs.head?.bind (chomping? ·.char), gs.head?.bind (Text.digit? ·.char) with
      | some chomping, _ =>
        match gs.tail.head?.bind (Text.digit? ·.char) with
        | some indentation => (⟨chomping, indentation⟩, gs.tail.tail)
        | none => (⟨chomping, 0⟩, gs.tail)
      | none, some indentation =>
        match gs.tail.head?.bind (chomping? ·.char) with
        | some chomping => (⟨chomping, indentation⟩, gs.tail.tail)
        | none => (⟨.clip, indentation⟩, gs.tail)
      | none, none => ({}, gs) := by
  rcases gs with _ | ⟨g, gs⟩
  · rfl
  · unfold signs
    simp only [List.head?_cons, List.tail_cons, Option.bind_some]
    cases chomping? g.char <;> cases Text.digit? g.char <;> cases gs <;> rfl

theorem signs_padded (h : Padded start gs gs') :
    Alike start gs.length Same (some (signs gs)) (some (signs gs')) := by
  have htail : gs.tail.length ≤ gs.length := by simp
  have htail' : gs.tail.tail.length ≤ gs.length := by simp; omega
  rw [signs_eq, signs_eq, h.head?_bind chomping?_eq_none_of_isFiller,
    h.head?_bind digit?_eq_none_of_isFiller, h.tail.head?_bind chomping?_eq_none_of_isFiller,
    h.tail.head?_bind digit?_eq_none_of_isFiller]
  split
  · split
    · exact .read rfl h.tail.tail htail'
    · exact .read rfl h.tail htail
  · split
    · exact .read rfl h.tail.tail htail'
    · exact .read rfl h.tail htail
  · exact .read rfl h (Nat.le_refl _)

theorem findColumn?_fillers (least : Nat) (h : ∀ g ∈ gs, isFiller g.char = true) :
    ∃ column, findColumn? least gs = some column := by
  induction gs generalizing least with
  | nil => exact ⟨least, rfl⟩
  | cons g gs ih =>
    obtain ⟨hg, hgs⟩ := List.forall_mem_cons.mp h
    have htab : g.char ≠ '\t' := of_isFiller (p := (· ≠ '\t')) hg (by decide)
    simp only [findColumn?, htab, if_false]
    split
    · exact ih _ hgs
    split
    · exact ih _ hgs
    · exact ⟨_, rfl⟩

theorem findColumn?_padded (h : Padded start gs gs') (hne : gs ≠ []) :
    findColumn? least gs' = findColumn? least gs := by
  induction h generalizing least with
  | gap => exact absurd rfl hne
  | @cons g gs gs' hlast h ih =>
    have hmore : isFiller g.char = true → gs ≠ [] := by
      intro hg hgs
      rw [hlast hgs] at hg
      cases hg
    rw [findColumn?, findColumn?]
    by_cases hspace : g.char = ' '
    · simp only [Glyph.below_char, hspace, if_true]
      exact ih (hmore (by rw [hspace]; rfl))
    by_cases hbreak : isBreak g.char = true
    · simp only [Glyph.below_char, hspace, hbreak, if_true, if_false]
      rw [ih (hmore (isFiller_of_isBreak hbreak))]
      rfl
    · simp only [Glyph.below_char, hspace, hbreak, if_false]
      rfl

theorem lines?_fillers (l : Layout) (spaced : Bool) (b? : Option Break)
    (h : ∀ g ∈ gs, isFiller g.char = true) :
    ∃ text rest, lines? l spaced b? gs = some (text, rest) ∧
      ∀ g ∈ rest, isFiller g.char = true := by
  induction gs generalizing spaced b? with
  | nil => cases b? <;> exact ⟨_, [], rfl, by simp⟩
  | cons g gs ih =>
    obtain ⟨hg, hgs⟩ := List.forall_mem_cons.mp h
    have htab : g.char ≠ '\t' := of_isFiller (p := (· ≠ '\t')) hg (by decide)
    have hmore : ∀ spaced' b?' (f : Text → Text), ∃ text rest,
        (lines? l spaced' b?' gs).map (fun read => (f read.1, read.2)) = some (text, rest) ∧
          ∀ g ∈ rest, isFiller g.char = true := by
      intro spaced' b?' f
      obtain ⟨text, rest, hread, hrest⟩ := ih spaced' b?' hgs
      exact ⟨f text, rest, by rw [hread]; rfl, hrest⟩
    cases b? with
    | none =>
      rw [lines?]
      split
      · exact ih _ _ hgs
      · exact hmore _ _ (g.char :: ·)
    | some b =>
      have hnotTab : ¬ (g.mark.column < l.column ∧ g.char = '\t') := fun hand => htab hand.2
      rw [lines?, if_neg hnotTab]
      split
      · exact ih _ _ hgs
      split
      · exact ih _ _ hgs
      split
      · exact hmore _ _ (b.text l.literal (isSpace g.char) ++ g.char :: ·)
      · exact ⟨_, _, rfl, h⟩

theorem lines?_padded (h : Padded start gs gs') :
    Alike start gs.length SameInside (lines? l spaced b? gs) (lines? l spaced b? gs') := by
  induction h generalizing spaced b? with
  | gap hfiller =>
    obtain ⟨text, rest, hread, hrest⟩ := lines?_fillers l spaced b? hfiller
    rw [hread]
    cases b? <;> exact .read (.inl rfl) (.gap hrest) (Nat.le_refl _)
  | @cons g gs gs' hlast h ih =>
    have hle : gs.length ≤ gs.length + 1 := Nat.le_succ _
    cases b? with
    | none =>
      rw [lines?, lines?]
      refine .ite Iff.rfl (fun _ => ih.mono hle) fun _ => ?_
      refine ih.map fun a b rest rest' hvalue hrest hlength => ?_
      exact .read (hvalue.imp_right (congrArg (g.char :: ·))) hrest (Nat.le_succ_of_le hlength)
    | some b =>
      rw [lines?, lines?]
      refine .ite Iff.rfl (fun _ => ih.mono hle) fun _ => ?_
      refine .ite Iff.rfl (fun _ => .failed) fun _ => ?_
      refine .ite Iff.rfl (fun _ => ih.mono hle) fun _ => ?_
      refine .ite Iff.rfl (fun _ => ?_) fun _ => .read (.inr rfl) (.cons hlast h) (Nat.le_refl _)
      refine ih.map fun a _ rest rest' hvalue hrest hlength => ?_
      refine .read (hvalue.imp_right fun heq => ?_) hrest (Nat.le_succ_of_le hlength)
      exact congrArg (b.text l.literal (isSpace g.char) ++ g.char :: ·) heq

theorem read?_padded {literal : Bool} {outer? : Option Nat} (h : Padded start gs gs') :
    Alike start gs.length SameInside (read? literal outer? gs) (read? literal outer? gs') := by
  unfold read?
  refine .ite (by rw [writesZero_padded h]) (fun _ => .failed) fun _ => ?_
  have hsigns := signs_padded h
  generalize signs gs = x at hsigns
  generalize signs gs' = x' at hsigns
  obtain ⟨header, rest⟩ := x
  obtain ⟨header', rest'⟩ := x'
  rcases hsigns with ⟨hheader, hrest, hlength⟩
  dsimp only [Same] at hheader hrest hlength
  subst hheader
  refine rel_bind hrest.afterLine? fun rest rest' ⟨hrest, hlength'⟩ => ?_
  have hle : rest.length ≤ gs.length := Nat.le_trans hlength' hlength
  have hlines : ∀ column, Alike start gs.length SameInside
      (lines? ⟨literal, header'.chomping, column⟩ false (some {}) rest)
      (lines? ⟨literal, header'.chomping, column⟩ false (some {}) rest') :=
    fun column => (lines?_padded hrest).mono hle
  dsimp only
  change Alike start gs.length SameInside _ _
  by_cases hindentation : header'.indentation = 0
  · rw [if_pos hindentation, if_pos hindentation]
    rcases hrest with hfiller | ⟨hlast, hrest⟩
    · -- Nothing is below the header, so that the column of the lines does not matter.
      obtain ⟨column, hcolumn⟩ := findColumn?_fillers (max 1 (outer?.elim 0 (· + 1))) hfiller
      obtain ⟨text, rest, hread, hfiller⟩ :=
        lines?_fillers ⟨literal, header'.chomping, column⟩ false (some {}) hfiller
      rw [hcolumn]
      simp only [Option.bind_eq_bind, Option.bind_some, hread]
      exact .read (.inl rfl) (.gap hfiller) (Nat.zero_le _)
    · rw [findColumn?_padded (.cons hlast hrest) (List.cons_ne_nil _ _)]
      cases findColumn? (max 1 (outer?.elim 0 (· + 1))) _ with
      | none => exact .failed
      | some column => exact hlines column
  · rw [if_neg hindentation, if_neg hindentation]
    exact hlines _

end Block

end Shortcode.Yaml
