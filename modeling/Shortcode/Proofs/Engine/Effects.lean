import Mathlib.Data.List.Basic
import Shortcode.Proofs.Engine.Stage
import Shortcode.Proofs.Expansion.Settled
import Shortcode.Proofs.Text.Runs

/-! # Effects

What a rendering warns of and what it asks the host. A shortcode either lacks what it needs, and then
there is one warning and no question, or it asks what its kind asks. The order is that of the
pipeline, and within a kind that of the text which its stage receives. The host has no part in it. -/

namespace Shortcode

/-- The warnings and the questions of a shortcode. -/
structure Effects where
  warnings : List Warning := []
  calls : List Call := []
deriving DecidableEq, Repr

/-- The stem of an ID that is drawn by a question. -/
def Call.stem? : Call → Option Text
  | .id stem => some stem
  | _ => none

/-- The stems of the IDs that are drawn. -/
def Effects.stems (x : Effects) : List Text :=
  x.calls.filterMap Call.stem?

namespace Kind

/-- The warning of a shortcode that lacks what its kind needs: a gallery images, tabs and accordions
a child, a countdown a date. -/
def missing? (k : Kind) (o : Occurrence) : Option Warning :=
  match k with
  | .gallery =>
    if ((Attributes.parse o.raw).getD "images" "").isEmpty then some .noImages else none
  | .tabs => if o.children "tab" = [] then some .noTabs else none
  | .accordion => if o.children "item" = [] then some .noItems else none
  | .countdown =>
    if ((Attributes.parse o.raw).getD "date" "").isEmpty then some .noDate else none
  | .button | .alert | .contactForm => none

/-- What a shortcode asks that lacks nothing. Widgets draw one ID; a gallery then looks up the pieces
between commas that are not blank, and a contact form asks for the URL, the token and the labels. -/
def questions (k : Kind) (o : Occurrence) : List Call :=
  match k with
  | .button | .alert => []
  | .gallery =>
    let pieces := ((Attributes.parse o.raw).getD "images" "").splitOn ','
    .id k.stem :: (pieces.filter (·.any (! Text.isBlank ·))).map fun piece => .image (Text.trim piece)
  | .tabs | .accordion | .countdown => [.id k.stem]
  | .contactForm =>
    [.id k.stem, .url, .token, .label .name, .label .email, .label .message, .label .send]

/-- What a shortcode of a kind warns of or asks for. -/
def effects (k : Kind) (o : Occurrence) : Effects :=
  match k.missing? o with
  | some w => { warnings := [w] }
  | none => { calls := k.questions o }

end Kind

/-! ### One shortcode -/

theorem Text.isEmpty_trim (text : Text) : (trim text).isEmpty = ! text.any (! isBlank ·) := by
  induction text with
  | nil => rfl
  | cons c text ih =>
    by_cases hc : isBlank c = true
    · have htrim : trim (c :: text) = trim text := by simp [trim, trimStart, hc]
      rw [htrim, ih]
      simp [hc]
    · have hstart : trimStart (c :: text) = c :: text := by simp [trimStart, hc]
      have hend : c ∈ trimEnd (c :: text) := by
        unfold trimEnd dropEndWhile
        rw [List.mem_reverse, List.reverse_cons, List.dropWhile_append]
        split <;> simp [hc]
      have hne : (trim (c :: text)).isEmpty = false := by
        rw [trim, hstart]
        exact List.isEmpty_eq_false_iff.mpr (List.ne_nil_of_mem hend)
      rw [hne]
      simp [hc]

theorem Expansion.imageIds_eq (images : Text) :
    imageIds images = ((images.splitOn ',').filter (·.any (! Text.isBlank ·))).map Text.trim := by
  rw [imageIds, List.filter_map]
  refine congrArg _ (List.filter_congr ?_)
  intro piece _
  simp [Text.isEmpty_trim]

namespace Expansion

/-- The warnings and the questions of an expansion that is settled. -/
def effects : Expansion → Effects
  | warning w => { warnings := [w] }
  | plain _ => {}
  | widget stem _ calls => { calls := .id stem :: calls }

theorem eq_warning_iff {x : Expansion} {w : Warning} :
    x = .warning w ↔ x.effects = { warnings := [w] } := by
  cases x <;> simp [effects]

end Expansion

/-- What a shortcode warns of and asks is fixed by the shortcode, whatever the host answers. -/
theorem Kind.effects_expand (k : Kind) (h : Host) (o : Occurrence) :
    (k.expand h o).effects = k.effects o := by
  cases k with
  | button => rfl
  | alert => rfl
  | gallery =>
    simp only [expand, Expansion.gallery_eq, Expansion.galleryMarkup, effects, missing?]
    split
    · rfl
    · simp only [Expansion.effects, Expansion.imageIds_eq, List.map_map]
      rfl
  | tabs =>
    simp only [expand, Expansion.tabs, effects, missing?]
    split
    · rename_i hnil
      rw [if_pos hnil]
      rfl
    · rename_i hne
      rw [if_neg hne]
      rfl
  | accordion =>
    simp only [expand, Expansion.accordion, effects, missing?]
    split
    · rename_i hnil
      rw [if_pos hnil]
      rfl
    · rename_i hne
      rw [if_neg hne]
      rfl
  | countdown =>
    simp only [expand, Expansion.countdown, effects, missing?]
    split <;> rfl
  | contactForm => rfl

/-- An ID is drawn where an expansion has one, and nowhere else. -/
theorem Kind.stems_effects (k : Kind) (h : Host) (o : Occurrence) :
    (k.effects o).stems = (k.expand h o).stem?.toList := by
  rw [← k.effects_expand h o]
  cases k with
  | gallery =>
    simp only [expand, Expansion.gallery_eq, Expansion.galleryMarkup]
    split
    · rfl
    · have himages : ∀ ids : List Text, (ids.map Call.image).filterMap Call.stem? = [] := by
        intro ids
        induction ids with
        | nil => rfl
        | cons id ids ih => exact ih
      show _ :: _ = [_]
      rw [himages]
  | tabs =>
    simp only [expand, Expansion.tabs]
    split <;> rfl
  | accordion =>
    simp only [expand, Expansion.accordion]
    split <;> rfl
  | countdown =>
    simp only [expand, Expansion.countdown]
    split <;> rfl
  | _ => rfl

/-! ### Renderings -/

/-- A rendering goes on from another one with some effects. -/
structure Rendering.Adds (r : Rendering) (effects : List Effects) (r' : Rendering) : Prop where
  warnings : r'.warnings = r.warnings ++ effects.flatMap (·.warnings)
  calls : r'.calls = r.calls ++ effects.flatMap (·.calls)
  drawn : r'.drawn = (effects.flatMap (·.stems)).reverse ++ r.drawn

namespace Rendering.Adds

variable {r r' r'' : Rendering} {xs ys : List Effects}

theorem refl (r : Rendering) : r.Adds [] r where
  warnings := (List.append_nil _).symm
  calls := (List.append_nil _).symm
  drawn := rfl

theorem trans (h : r.Adds xs r') (h' : r'.Adds ys r'') : r.Adds (xs ++ ys) r'' where
  warnings := by rw [h'.warnings, h.warnings, List.flatMap_append, List.append_assoc]
  calls := by rw [h'.calls, h.calls, List.flatMap_append, List.append_assoc]
  drawn := by
    rw [h'.drawn, h.drawn, List.flatMap_append, List.reverse_append, List.append_assoc]

/-- A rendering that is put behind another one with the draws of which it starts. -/
theorem andThen {text : Text} (h : (start r.drawn text).Adds xs r') : r.Adds xs (r.andThen r') where
  warnings := congrArg (r.warnings ++ ·) h.warnings
  calls := congrArg (r.calls ++ ·) h.calls
  drawn := h.drawn

end Rendering.Adds

namespace Engine

variable (e : Engine) (k : Kind)

theorem adds_settle (drawn : List Text) (text : Text) (o : Occurrence) :
    (Rendering.start drawn text).Adds [k.effects o]
      ((k.expand e.host o).settle e.host.escape e.ids drawn) where
  warnings := by
    rw [← k.effects_expand e.host o]
    cases k.expand e.host o <;> rfl
  calls := by
    rw [← k.effects_expand e.host o]
    cases k.expand e.host o with
    | widget stem markup calls => exact (List.append_nil _).symm
    | _ => rfl
  drawn := by
    rw [Expansion.settle_drawn, List.flatMap_singleton, k.stems_effects e.host o]
    cases (k.expand e.host o).stem? <;> rfl

theorem adds_renderCut (drawn : List Text) (text : Text) (cut : Cut Occurrence) :
    (Rendering.start drawn text).Adds (cut.values.map k.effects) (e.renderCut k drawn cut) := by
  induction cut generalizing drawn with
  | last gap => exact ⟨rfl, rfl, rfl⟩
  | next gap part o rest ih =>
    have hfirst := e.adds_settle k drawn text o
    have hrest := ih ((k.expand e.host o).settle e.host.escape e.ids drawn).drawn
    have hboth := hfirst.trans hrest.andThen
    exact ⟨hboth.warnings, hboth.calls, hboth.drawn⟩

theorem adds_advance (r : Rendering) {cut : Cut Occurrence} (h : cut.IsLeftmostOf k.grammar r.text) :
    r.Adds (cut.values.map k.effects) (e.advance r k) := by
  rw [advance, e.stage?_eq_renderCut k h]
  by_cases hvalues : cut.values = []
  · rw [if_pos hvalues, hvalues]
    exact .refl r
  · rw [if_neg hvalues]
    exact (e.adds_renderCut k r.drawn r.text cut).andThen

/-- The stages of some kinds have the effects of the shortcodes that each stage finds in the text
which it receives. -/
theorem exists_cuts_adds_foldl_advance {kinds : List Kind} (hkinds : kinds.Nodup) (r : Rendering) :
    ∃ cuts : Kind → Cut Occurrence,
      (∀ earlier k later, kinds = earlier ++ k :: later →
        (cuts k).IsLeftmostOf k.grammar (earlier.foldl e.advance r).text) ∧
      r.Adds (kinds.flatMap fun k => (cuts k).values.map k.effects) (kinds.foldl e.advance r) := by
  induction kinds generalizing r with
  | nil => exact ⟨fun _ => .last [], by simp, .refl r⟩
  | cons k kinds ih =>
    obtain ⟨hnew, hrest⟩ := List.nodup_cons.mp hkinds
    obtain ⟨cut, hcut⟩ := Cut.exists_isLeftmostOf k.reads_occurrence r.text
    obtain ⟨cuts, hcuts, hadds⟩ := ih hrest (e.advance r k)
    let all : Kind → Cut Occurrence := fun l => if l = k then cut else cuts l
    have hself : all k = cut := if_pos rfl
    have hother : ∀ l ∈ kinds, all l = cuts l := by
      intro l hl
      refine if_neg ?_
      rintro rfl
      exact hnew hl
    refine ⟨all, ?_, ?_⟩
    · intro earlier l later hsplit
      cases earlier with
      | nil =>
        obtain ⟨rfl, -⟩ := List.cons.inj hsplit
        rw [hself]
        exact hcut
      | cons m earlier =>
        obtain ⟨rfl, hsplit'⟩ := List.cons.inj hsplit
        rw [hother l (hsplit' ▸ List.mem_append_right earlier (List.mem_cons_self ..))]
        exact hcuts earlier l later hsplit'
    · have hrest : (kinds.flatMap fun l => (all l).values.map l.effects) =
          kinds.flatMap fun l => (cuts l).values.map l.effects :=
        List.flatMap_congr fun l hl => by rw [hother l hl]
      rw [List.flatMap_cons, hself, hrest]
      exact (e.adds_advance k r hcut).trans hadds

/-- The warnings and the questions of a rendering are those of the shortcodes, in the order of the
pipeline, and for each kind from left to right in the text that its stage receives. The IDs that are
drawn are those that are asked for; a shortcode that becomes a warning asks for none. -/
theorem render_effects (e : Engine) (drawn : List Text) (text : Text) :
    ∃ cuts : Kind → Cut Occurrence,
      (∀ earlier k later, e.switches.enabled = earlier ++ k :: later →
        (cuts k).IsLeftmostOf k.grammar (earlier.foldl e.advance (.start drawn text)).text) ∧
      (let effects := e.switches.enabled.flatMap fun k => (cuts k).values.map k.effects
       (e.render drawn text).warnings = effects.flatMap (·.warnings) ∧
       (e.render drawn text).calls = effects.flatMap (·.calls) ∧
       (e.render drawn text).drawn = (effects.flatMap (·.stems)).reverse ++ drawn) ∧
      ∀ (k : Kind) o w, k.expand e.host o = .warning w ↔ k.effects o = { warnings := [w], calls := [] } := by
  have hnodup : e.switches.enabled.Nodup := by
    have hpipeline : Kind.pipeline.Nodup := by decide
    exact hpipeline.filter _
  obtain ⟨cuts, hcuts, hadds⟩ := e.exists_cuts_adds_foldl_advance hnodup (.start drawn text)
  refine ⟨cuts, hcuts, ⟨hadds.warnings, hadds.calls, hadds.drawn⟩, ?_⟩
  intro k o w
  rw [← k.effects_expand e.host o]
  exact Expansion.eq_warning_iff

end Engine

end Shortcode
