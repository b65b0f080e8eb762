import Shortcode.Proofs.Engine.Replacements
import Shortcode.Proofs.Expansion.Links

/-! # Element IDs

With sequential IDs every element gets an ID of its own, over all kinds, all shortcodes and all
texts of one engine: the number in it tells which draw it derives from. References stay inside the
expansion that makes them.

The links are read off the texts that a run is made of. Such a text is a template filled with one
ID, and it tells which: a longer ID fills to a longer text. -/

namespace Shortcode

open Markup Expansion

namespace Replacement

/-- The links that the replacement writes. -/
def links (e : Engine) (x : Replacement) : Links :=
  (x.expansion e.host).template.links e.host.escape ((x.expansion e.host).id e.ids x.drawn)

/-- The text in the place of the shortcode has the given links: it is the markup of the expansion
for some ID, and these are the links in that. -/
def Writes (e : Engine) (x : Replacement) (l : Links) : Prop :=
  ∃ id, (x.settled e).text = (x.expansion e.host).template.fill e.host.escape id ∧
    (x.expansion e.host).template.links e.host.escape id = l

theorem writes_iff {e : Engine} {x : Replacement} {l : Links} : x.Writes e l ↔ l = x.links e := by
  have hsettled : (x.settled e).text = (x.expansion e.host).template.fill e.host.escape
      ((x.expansion e.host).id e.ids x.drawn) := Expansion.settle_text ..
  constructor
  · rintro ⟨id, htext, rfl⟩
    exact Template.links_eq_of_fill_eq (htext.symm.trans hsettled)
  · rintro rfl
    exact ⟨_, hsettled, rfl⟩

end Replacement

/-- The number of a sequential ID is the first one in every ID that derives from it. -/
theorem Ids.firstNumber_of_derives {k : Kind} {drawn : List Text} {x : Text}
    (h : Derives (Ids.sequential.next drawn k.stem) x) :
    Text.firstNumber x = Text.decimal (drawn.length + 1) := by
  obtain ⟨before, after, rfl, hbefore, hafter⟩ := h
  have hstem : ∀ before ∈ [[], ("heading-" : Text)],
      (before ++ (k.stem ++ ['-'])).all (! ·.isDigit) = true := by
    cases k <;> decide
  have htext : before ++ (Ids.sequential.next drawn k.stem ++ after) =
      (before ++ (k.stem ++ ['-'])) ++ (Text.decimal (drawn.length + 1) ++ after) := by
    simp [Ids.sequential]
  rw [htext]
  have hdigits : ∀ c ∈ before ++ (k.stem ++ ['-']), c.isDigit = false := fun c hc => by
    simpa using List.all_eq_true.mp (hstem before hbefore) c hc
  refine Text.firstNumber_append hdigits ?_
  intro c hc
  rw [hafter c hc]
  decide

namespace Replacement

variable {e : Engine} {x y : Replacement}

/-- A replacement that draws no ID has no links, and those of a widget are sound. -/
theorem links_sound (he : e.ids = .sequential) (x : Replacement) :
    x.links e = {} ∨ (x.expansion e.host).stem? ≠ none ∧
      SoundLinks (Ids.sequential.next x.drawn x.kind.stem) (x.links e) := by
  have hhead : ((x.expansion e.host).id e.ids x.drawn).head? ≠ some 'h' := by
    cases hstem : (x.expansion e.host).stem? with
    | none => simp [Expansion.id, hstem]
    | some stem =>
      have hfirst : x.kind.stem.head? ≠ some 'h' ∧ x.kind.stem ≠ [] := by
        cases x.kind <;> decide
      obtain ⟨c, rest, hcons⟩ := List.exists_cons_of_ne_nil hfirst.2
      rw [hcons] at hfirst
      simpa [Expansion.id, hstem, he, Ids.sequential, Kind.stem?_expand hstem, hcons] using hfirst.1
  rcases x.kind.links_expand e.host x.occurrence e.host.escape hhead with
    ⟨-, hnone⟩ | ⟨hstem, hsound⟩
  · exact .inl hnone
  · obtain ⟨stem, hsome⟩ := Option.ne_none_iff_exists'.mp hstem
    have hid : (x.expansion e.host).id e.ids x.drawn =
        Ids.sequential.next x.drawn x.kind.stem := by
      simp [Expansion.id, expansion, hsome, he, Kind.stem?_expand hsome]
    rw [← hid]
    exact .inr ⟨hstem, hsound⟩

/-- The IDs of a later replacement are different from those of a widget. -/
theorem ids_disjoint (he : e.ids = .sequential)
    (h : (x.expansion e.host).stem? ≠ none → x.drawn.length < y.drawn.length) :
    List.Disjoint (x.links e).ids (y.links e).ids := by
  intro id hx hy
  rcases x.links_sound he with hnone | ⟨hdraws, hsound⟩
  · simp [hnone] at hx
  · rcases y.links_sound he with hnone | ⟨-, hsound'⟩
    · simp [hnone] at hy
    · have hnumber := Ids.firstNumber_of_derives (hsound.derives id hx)
      rw [Ids.firstNumber_of_derives (hsound'.derives id hy), Text.decimal_inj] at hnumber
      have hlt := h hdraws
      omega

end Replacement

namespace Engine

/-- Texts that an engine with sequential IDs renders one after the other are rendered by exchanging
shortcodes for texts that have one set of links each. All element IDs in these are different, and in
every one of them the toggles name the panels one by one and every other reference names an ID of
the same text. -/
theorem element_ids_nodup_and_resolve (switches : Switches) (host : Host) (drawn texts : List Text) :
    let e : Engine := { switches, host, ids := .sequential }
    let xs := e.replacementsOfTexts drawn texts
    e.RendersBy drawn texts xs ∧
      ∃ links, List.Forall₂ (fun x l => ∀ l', x.Writes e l' ↔ l' = l) xs links ∧
        (links.flatMap Links.ids).Nodup ∧ ∀ l ∈ links, l.Resolve := by
  intro e xs
  have he : e.ids = .sequential := rfl
  obtain ⟨drawn', hfollows⟩ := e.replacementsOfTexts_follows drawn texts
  refine ⟨e.rendersBy_replacementsOfTexts drawn texts,
    xs.map (·.links e), ?_, ?_, ?_⟩
  · rw [List.forall₂_map_right_iff]
    exact List.forall₂_same.mpr fun x _ l' => Replacement.writes_iff
  · rw [List.flatMap_map, List.nodup_flatMap]
    constructor
    · intro x _
      rcases x.links_sound he with hnone | ⟨-, hsound⟩
      · rw [hnone]
        exact List.nodup_nil
      · exact hsound.nodup
    · exact hfollows.pairwise.imp fun h => Replacement.ids_disjoint he h
  · rw [List.forall_mem_map]
    intro x _
    rcases x.links_sound he with hnone | ⟨-, hsound⟩
    · rw [hnone]
      exact ⟨rfl, by simp, by simp, by simp⟩
    · exact hsound.resolve

/-- A gallery and tabs in two texts. -/
example :
    let e : Engine := { host := { token := [] }, ids := .sequential }
    (e.replacementsOfTexts [] ["[gallery images=\"1\"]",
      "[tabs][tab title=\"a\"][/tab][/tabs]"]).map (·.links e) =
      [{ ids := ["gallery-1"] },
        { ids := ["tabs-2-nav", "tabs-2-tab-0-tab", "tabs-2-content", "tabs-2-tab-0"]
          panels := ["tabs-2-tab-0"]
          targets := ["#tabs-2-tab-0"] }] := by
  repeat rw [String.toList_ofList]
  decide +kernel

end Engine

end Shortcode
