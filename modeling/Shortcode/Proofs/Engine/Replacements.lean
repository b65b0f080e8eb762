import Shortcode.Proofs.Engine.Stage
import Shortcode.Proofs.Expansion.Settled

/-! # Replacements

What a run replaces, in order: which shortcode, and the IDs that were drawn before it. Every
replacement starts from the draws that the one before it leaves, within a stage, from stage to
stage and from text to text. What comes out of a run is the text with its replacements settled in
the places of the shortcodes, once for every stage. -/

namespace Shortcode

/-- A shortcode that is replaced after the given draws. -/
structure Replacement where
  kind : Kind
  occurrence : Occurrence
  drawn : List Text

namespace Replacement

/-- What the shortcode becomes. -/
def expansion (h : Host) (x : Replacement) : Expansion :=
  x.kind.expand h x.occurrence

/-- The draws after the replacement. -/
def drawnAfter (h : Host) (x : Replacement) : List Text :=
  (x.expansion h).stem?.toList ++ x.drawn

/-- What an engine writes in the place of the shortcode. -/
def settled (e : Engine) (x : Replacement) : Rendering :=
  (x.expansion e.host).settle e.host.escape e.ids x.drawn

end Replacement

/-- The text of a cut with other texts in the places of its parts. -/
def Cut.exchange {α : Type} : Cut α → List Text → Text
  | .last gap, _ => gap
  | .next gap _ _ rest, text :: texts => gap ++ (text ++ rest.exchange texts)
  | .next gap part _ rest, [] => gap ++ (part ++ rest.exchange [])

namespace Engine

variable (e : Engine)

/-- The replacements of the shortcodes of one kind. -/
def replaceAll (k : Kind) : List Text → List Occurrence → List Replacement
  | _, [] => []
  | drawn, o :: rest =>
    let x : Replacement := ⟨k, o, drawn⟩
    x :: replaceAll k (x.drawnAfter e.host) rest

/-- The replacements of the stages of some kinds, one stage after the other. -/
def replacementsFrom : Rendering → List Kind → List Replacement
  | _, [] => []
  | r, k :: kinds =>
    e.replaceAll k r.drawn (Scan.hits k.occurrence? r.text) ++
      replacementsFrom (e.advance r k) kinds

/-- The replacements that rendering a text makes. -/
def replacements (drawn : List Text) (text : Text) : List Replacement :=
  e.replacementsFrom (.start drawn text) e.switches.enabled

/-- The replacements that rendering some texts makes, one text after the other. -/
def replacementsOfTexts : List Text → List Text → List Replacement
  | _, [] => []
  | drawn, text :: texts =>
    e.replacements drawn text ++ replacementsOfTexts (e.render drawn text).drawn texts

/-- The replacements follow each other from some draws to others. -/
inductive Follows (h : Host) : List Text → List Replacement → List Text → Prop where
  | nil (drawn : List Text) : Follows h drawn [] drawn
  | cons {x : Replacement} {xs : List Replacement} {drawn : List Text}
      (rest : Follows h (x.drawnAfter h) xs drawn) : Follows h x.drawn (x :: xs) drawn

namespace Follows

variable {h : Host} {d d' d'' : List Text} {xs ys : List Replacement}

theorem append (hx : Follows h d xs d') (hy : Follows h d' ys d'') : Follows h d (xs ++ ys) d'' := by
  induction hx with
  | nil => exact hy
  | cons _ ih => exact .cons (ih hy)

/-- No replacement starts from fewer draws than the first one. -/
theorem length_le (hx : Follows h d xs d') : ∀ x ∈ xs, d.length ≤ x.drawn.length := by
  induction hx with
  | nil => simp
  | @cons x xs drawn _ ih =>
    intro y hy
    rcases List.mem_cons.mp hy with rfl | hy
    · exact Nat.le_refl _
    · refine Nat.le_trans ?_ (ih y hy)
      simp [Replacement.drawnAfter]

/-- No draw is undone. -/
theorem suffix (hx : Follows h d xs d') : d <:+ d' := by
  induction hx with
  | nil => exact List.suffix_refl _
  | cons _ ih => exact (List.suffix_append _ _).trans ih

/-- Behind a replacement that draws an ID, all others start from more draws. -/
theorem pairwise (hx : Follows h d xs d') :
    xs.Pairwise fun x y => (x.expansion h).stem? ≠ none → x.drawn.length < y.drawn.length := by
  induction hx with
  | nil => exact .nil
  | @cons x xs drawn hrest ih =>
    refine .cons ?_ ih
    intro y hy hdraws
    obtain ⟨stem, hstem⟩ := Option.ne_none_iff_exists'.mp hdraws
    have hle := hrest.length_le y hy
    simp only [Replacement.drawnAfter, hstem, Option.toList_some, List.length_append,
      List.length_cons, List.length_nil] at hle
    omega

end Follows

/-! ### The texts of a run -/

/-- Stages of some kinds make one text of another. Each cuts the text that it receives at the
shortcodes of its kind, from the left, and exchanges them for what the replacements are settled to. -/
inductive Makes : List Kind → Text → List Replacement → Text → Prop where
  | done (text : Text) : Makes [] text [] text
  | stage {k : Kind} {kinds : List Kind} {cut : Cut Occurrence} {xs ys : List Replacement}
      {result : Text} (leftmost : cut.IsLeftmost k.grammar)
      (replaced : xs.map (fun x => (x.kind, x.occurrence)) = cut.values.map (k, ·))
      (rest : Makes kinds (cut.exchange (xs.map fun x => (x.settled e).text)) ys result) :
      Makes (k :: kinds) cut.text (xs ++ ys) result

/-- Texts are rendered one after the other, and some replacements make what becomes of them. -/
inductive RendersBy : List Text → List Text → List Replacement → Prop where
  | nil (drawn : List Text) : RendersBy drawn [] []
  | cons {drawn : List Text} {text : Text} {texts : List Text} {xs ys : List Replacement}
      (made : e.Makes e.switches.enabled text xs (e.render drawn text).text)
      (rest : RendersBy (e.render drawn text).drawn texts ys) :
      RendersBy drawn (text :: texts) (xs ++ ys)

theorem map_replaceAll (k : Kind) (drawn : List Text) (occurrences : List Occurrence) :
    (e.replaceAll k drawn occurrences).map (fun x => (x.kind, x.occurrence)) =
      occurrences.map (k, ·) := by
  induction occurrences generalizing drawn with
  | nil => rfl
  | cons o occurrences ih => rw [replaceAll, List.map_cons, List.map_cons, ih]

theorem exchange_replaceAll (k : Kind) (drawn : List Text) (cut : Cut Occurrence) :
    cut.exchange ((e.replaceAll k drawn cut.values).map fun x => (x.settled e).text) =
      (e.renderCut k drawn cut).text := by
  induction cut generalizing drawn with
  | last gap => rfl
  | next gap part o rest ih =>
    let x : Replacement := ⟨k, o, drawn⟩
    have hdrawn : (x.settled e).drawn = x.drawnAfter e.host := Expansion.settle_drawn ..
    have hrest := ih (x.drawnAfter e.host)
    rw [← hdrawn] at hrest
    rw [Cut.values, replaceAll, List.map_cons, Cut.exchange, ← hdrawn, hrest, ← List.append_assoc]
    rfl

theorem advance_text {k : Kind} {r : Rendering} {cut : Cut Occurrence}
    (h : cut.IsLeftmostOf k.grammar r.text) :
    (e.advance r k).text = (e.renderCut k r.drawn cut).text := by
  rw [advance, e.stage?_eq_renderCut k h r.drawn]
  cases cut with
  | last gap =>
    obtain ⟨htext, -⟩ := h
    exact htext.symm
  | next gap part o rest => rfl

theorem makes_replacementsFrom (r : Rendering) (kinds : List Kind) :
    e.Makes kinds r.text (e.replacementsFrom r kinds) (kinds.foldl e.advance r).text := by
  induction kinds generalizing r with
  | nil => exact .done r.text
  | cons k kinds ih =>
    obtain ⟨cut, hcut⟩ := Cut.exists_isLeftmostOf k.reads_occurrence r.text
    have hrest := ih (e.advance r k)
    rw [e.advance_text hcut, ← e.exchange_replaceAll] at hrest
    rw [replacementsFrom, hcut.hits_eq_values k.reads_occurrence, ← hcut.1]
    exact .stage hcut.2 (e.map_replaceAll k r.drawn cut.values) hrest

theorem rendersBy_replacementsOfTexts (drawn texts : List Text) :
    e.RendersBy drawn texts (e.replacementsOfTexts drawn texts) := by
  induction texts generalizing drawn with
  | nil => exact .nil drawn
  | cons text texts ih =>
    have hmade := e.makes_replacementsFrom (.start drawn text) e.switches.enabled
    exact .cons hmade (ih (e.render drawn text).drawn)

/-! ### The draws of a run -/

theorem renderSegments_follows (k : Kind) (drawn : List Text) (segments : List (Segment Occurrence)) :
    Follows e.host drawn (e.replaceAll k drawn (segments.filterMap Segment.value?))
      (e.renderSegments k drawn segments).drawn := by
  induction segments generalizing drawn with
  | nil => exact .nil drawn
  | cons segment segments ih =>
    cases segment with
    | gap c => exact ih drawn
    | hit o =>
      let x : Replacement := ⟨k, o, drawn⟩
      have hdrawn : ((k.expand e.host o).settle e.host.escape e.ids drawn).drawn =
          x.drawnAfter e.host := Expansion.settle_drawn ..
      have hrest := ih (x.drawnAfter e.host)
      rw [← hdrawn] at hrest
      exact .cons (x := x) (hdrawn ▸ hrest)

theorem advance_follows (r : Rendering) (k : Kind) :
    Follows e.host r.drawn (e.replaceAll k r.drawn (Scan.hits k.occurrence? r.text))
      (e.advance r k).drawn := by
  have hsegments := e.renderSegments_follows k r.drawn (Scan.segments k.occurrence? r.text)
  by_cases hany : (Scan.segments k.occurrence? r.text).any (·.value?.isSome) = true
  · simp only [advance, stage?, if_pos hany]
    exact hsegments
  · have hhits : Scan.hits k.occurrence? r.text = [] := by
      refine List.filterMap_eq_nil_iff.mpr ?_
      intro segment hmem
      rw [Bool.not_eq_true, List.any_eq_false] at hany
      exact Option.not_isSome_iff_eq_none.mp (hany segment hmem)
    rw [hhits]
    simp only [advance, stage?, if_neg hany]
    exact .nil r.drawn

theorem replacementsFrom_follows (r : Rendering) (kinds : List Kind) :
    Follows e.host r.drawn (e.replacementsFrom r kinds) (kinds.foldl e.advance r).drawn := by
  induction kinds generalizing r with
  | nil => exact .nil r.drawn
  | cons k kinds ih => exact (e.advance_follows r k).append (ih (e.advance r k))

theorem replacementsOfTexts_follows (drawn texts : List Text) :
    ∃ drawn', Follows e.host drawn (e.replacementsOfTexts drawn texts) drawn' := by
  induction texts generalizing drawn with
  | nil => exact ⟨drawn, .nil drawn⟩
  | cons text texts ih =>
    obtain ⟨drawn', hrest⟩ := ih (e.render drawn text).drawn
    exact ⟨drawn', (e.replacementsFrom_follows (.start drawn text) e.switches.enabled).append hrest⟩

end Engine

end Shortcode
