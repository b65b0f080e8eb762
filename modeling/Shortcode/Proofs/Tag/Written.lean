import Shortcode.Proofs.Attributes
import Shortcode.Proofs.Tag.Reading

/-! # Written tags

An opening tag with attributes as they are usually written, and what stands behind it. The tag ends at
its first closing bracket, inside quotes as well, so its values must hold none. -/

namespace Shortcode

theorem Text.isBlank_eq_false_of_isWordChar {c : Char} (h : isWordChar c = true) :
    isBlank c = false := by
  have hrange : 0x30 ≤ c.toNat ∧ c.toNat ≤ 0x7A := by
    have hwithin : ∀ low high : Char, 0x30 ≤ low.toNat → high.toNat ≤ 0x7A → low.val ≤ c.val →
        c.val ≤ high.val → 0x30 ≤ c.toNat ∧ c.toNat ≤ 0x7A := by
      intro low high hlow hhigh hfrom hto
      exact ⟨Nat.le_trans hlow hfrom, Nat.le_trans hto hhigh⟩
    rcases Bool.or_eq_true_iff.mp h with halphanum | hline
    · rcases Bool.or_eq_true_iff.mp halphanum with halpha | hdigit
      · rcases Bool.or_eq_true_iff.mp halpha with hupper | hlower
        · obtain ⟨hfrom, hto⟩ := of_decide_eq_true hupper
          exact hwithin 'A' 'Z' (by decide) (by decide) hfrom hto
        · obtain ⟨hfrom, hto⟩ := Bool.and_eq_true_iff.mp hlower
          exact hwithin 'a' 'z' (by decide) (by decide) (of_decide_eq_true hfrom)
            (of_decide_eq_true hto)
      · obtain ⟨hfrom, hto⟩ := Bool.and_eq_true_iff.mp hdigit
        exact hwithin '0' '9' (by decide) (by decide) (of_decide_eq_true hfrom)
          (of_decide_eq_true hto)
    · obtain rfl := beq_iff_eq.mp hline
      decide
  simp only [isBlank, Bool.or_eq_false_iff, Bool.and_eq_false_iff, decide_eq_false_iff_not,
    beq_eq_false_iff_ne]
  omega

namespace Attributes

/-- Pairs with a space between them. -/
def writeAll : List (Text × Text) → Text
  | [] => []
  | pair :: pairs => write pair ++ pairs.flatMap fun pair => ' ' :: write pair

theorem parse_writeAll {pairs : List (Text × Text)} (h : ∀ pair ∈ pairs, IsPair pair) :
    parse (writeAll pairs) = ⟨pairs⟩ := by
  cases pairs with
  | nil => rfl
  | cons pair pairs =>
    obtain ⟨hpair, hpairs⟩ := List.forall_mem_cons.mp h
    let spaced := pairs.map fun pair => ([' '], pair)
    have hspace : SetsOff [' '] := by
      refine ⟨by decide, ?_⟩
      intro c hc
      obtain rfl := Option.some.inj hc
      decide
    have hspaced : ∀ p ∈ ([], pair) :: spaced, SetsOff p.1 ∧ IsPair p.2 := by
      rw [List.forall_mem_cons]
      refine ⟨⟨⟨by simp, by simp⟩, hpair⟩, ?_⟩
      intro p hp
      obtain ⟨pair', hpair', rfl⟩ := List.mem_map.mp hp
      exact ⟨hspace, hpairs pair' hpair'⟩
    have hread := pairs_of_written hspaced (List.not_mem_nil : '"' ∉ ([] : Text))
    have htext : (([], pair) :: spaced).flatMap (fun p => p.1 ++ write p.2) ++ [] =
        writeAll (pair :: pairs) := by
      simp [writeAll, spaced, List.flatMap_map]
    have hvalues : (([], pair) :: spaced).map Prod.snd = pair :: pairs := by
      simp [spaced, Function.comp_def]
    rw [htext, hvalues] at hread
    exact congrArg Attributes.mk hread

theorem not_mem_writeAll {c : Char} (hc : c ∉ ['"', '=', ' ']) {pairs : List (Text × Text)}
    (h : ∀ pair ∈ pairs, c ∉ pair.1 ∧ c ∉ pair.2) : c ∉ writeAll pairs := by
  have hwrite : ∀ pair : Text × Text, c ∉ pair.1 ∧ c ∉ pair.2 → c ∉ write pair := by
    rintro pair ⟨hname, hvalue⟩
    simp only [List.mem_cons, List.not_mem_nil, or_false, not_or] at hc
    simp [write, hname, hvalue, hc.1, hc.2.1]
  cases pairs with
  | nil => simp [writeAll]
  | cons pair pairs =>
    obtain ⟨hpair, hpairs⟩ := List.forall_mem_cons.mp h
    rw [writeAll, List.mem_append, not_or, List.mem_flatMap]
    refine ⟨hwrite pair hpair, ?_⟩
    rintro ⟨pair', hpair', hmem⟩
    rcases List.mem_cons.mp hmem with rfl | hmem
    · simp at hc
    · exact hwrite pair' (hpairs pair' hpair') hmem

end Attributes

namespace Tag

open Attributes

/-- An opening tag with some pairs, each behind a space. -/
def write (word : Text) (pairs : List (Text × Text)) : Text :=
  '[' :: (word ++ (pairs.flatMap (fun pair => ' ' :: Attributes.write pair) ++ [']']))

theorem opens_write {keyword word : Text} (hword : Spells keyword word)
    {pairs : List (Text × Text)} (hpairs : ∀ pair ∈ pairs, IsPair pair ∧ ']' ∉ pair.2) :
    Opens keyword (write word pairs) (writeAll pairs) := by
  have hbracket : ']' ∉ writeAll pairs := by
    refine not_mem_writeAll (by decide) ?_
    intro pair hpair
    obtain ⟨⟨-, hname, -⟩, hvalue⟩ := hpairs pair hpair
    exact ⟨fun hmem => absurd (List.all_eq_true.mp hname _ hmem) (by decide), hvalue⟩
  cases pairs with
  | nil => exact .bare hword
  | cons pair pairs =>
    obtain ⟨⟨⟨hne, hname, -⟩, -⟩, -⟩ := List.forall_mem_cons.mp hpairs
    have hhead : ∀ c ∈ (writeAll (pair :: pairs)).head?, Text.isBlank c = false := by
      intro c hc
      obtain ⟨d, name, hd⟩ := List.exists_cons_of_ne_nil hne
      rw [writeAll, Attributes.write, hd] at hc
      obtain rfl := Option.some.inj hc
      rw [hd, List.all_cons, Bool.and_eq_true] at hname
      exact Text.isBlank_eq_false_of_isWordChar hname.1
    have hspace : ∀ c ∈ [' '], Text.isBlank c = true := List.forall_mem_singleton.mpr rfl
    have htag := Opens.attributed hword (List.cons_ne_nil ' ' []) hspace hhead hbracket
    have htext : write word (pair :: pairs) =
        '[' :: (word ++ ([' '] ++ (writeAll (pair :: pairs) ++ [']']))) := by
      simp [write, writeAll]
    rw [htext]
    exact htag

end Tag

/-- What stands behind the opening tag of a shortcode with the given body: nothing, or the body and
the closing tag. The body of a container holds no closing tag. -/
def Kind.Completes (k : Kind) (body tail : Text) : Prop :=
  match k.shape with
  | .lone => body = [] ∧ tail = []
  | .leaf => Tag.BracketFree k.name tail body
  | .container _ => Tag.Enclosed k.name tail body

theorem Kind.grammar_of_completes {k : Kind} {tag raw body tail : Text}
    (htag : Tag.Opens k.name tag raw) (h : k.Completes body tail) :
    k.grammar (tag ++ tail) ⟨raw, body⟩ := by
  unfold Completes at h
  cases hshape : k.shape with
  | lone =>
    rw [hshape] at h
    obtain ⟨rfl, rfl⟩ := h
    rw [List.append_nil]
    exact (grammar_lone hshape).mpr ⟨htag, rfl⟩
  | leaf =>
    rw [hshape] at h
    rw [grammar_leaf hshape]
    exact ⟨tag, tail, raw, body, rfl, htag, h, rfl⟩
  | container child =>
    rw [hshape] at h
    rw [grammar_container hshape]
    exact ⟨tag, tail, raw, body, rfl, htag, h, rfl⟩

/-- A body that is one child has no other. -/
theorem Occurrence.children_eq_singleton {keyword : Text} (hk : '[' ∉ keyword) {o : Occurrence}
    {child : Child} (h : Child.grammar keyword o.body child) : o.children keyword = [child] :=
  Occurrence.children_eq_values hk (Cut.isLeftmostOf_next_nil h)

/-! ### Raw attributes -/

namespace Tag

/-- An opening tag with what stands behind its keyword. -/
def opening (keyword raw : Text) : Text :=
  '[' :: (keyword ++ (raw ++ [']']))

def closing (keyword : Text) : Text :=
  '[' :: '/' :: (keyword ++ [']'])

/-- Raw attributes of a tag: nothing, or a blank and anything but square brackets behind it. -/
def IsRaw (raw : Text) : Prop :=
  (∀ c ∈ raw.head?, Text.isBlank c = true) ∧ '[' ∉ raw ∧ ']' ∉ raw

instance (raw : Text) : Decidable (IsRaw raw) :=
  @instDecidableAnd _ _ (Option.decidableForallMem _) inferInstance

variable {keyword raw : Text}

theorem opens_opening (hkeyword : Spells keyword keyword) (hraw : IsRaw raw) :
    Opens keyword (opening keyword raw) (Text.trimStart raw) := by
  obtain ⟨hset, -, hclosing⟩ := hraw
  cases raw with
  | nil => exact .bare hkeyword
  | cons c raw =>
    obtain ⟨blanks, hsplit, hblanks, hhead⟩ := Text.exists_blanks (c :: raw)
    have hne : blanks ≠ [] := by
      rintro rfl
      rw [List.nil_append] at hsplit
      rw [← hsplit] at hhead
      have hblank := hset c rfl
      rw [hhead c rfl] at hblank
      cases hblank
    have hbracket : ']' ∉ Text.trimStart (c :: raw) := fun hmem =>
      hclosing ((List.dropWhile_suffix _).subset hmem)
    have htag := Opens.attributed hkeyword hne hblanks hhead hbracket
    rw [← List.append_assoc blanks, ← hsplit] at htag
    exact htag

theorem IsRaw.opening_not_mem_trimStart (h : IsRaw raw) : '[' ∉ Text.trimStart raw :=
  fun hmem => h.2.1 ((List.dropWhile_suffix _).subset hmem)

theorem closes_closing (hkeyword : Spells keyword keyword) : Closes keyword (closing keyword) :=
  ⟨keyword, hkeyword, rfl⟩

end Tag

theorem Kind.spells_name (k : Kind) : Spells k.name k.name := by
  cases k <;> rfl

/-- Blanks in front of attributes do not count. -/
theorem Attributes.parse_trimStart (raw : Text) : parse (Text.trimStart raw) = parse raw := by
  obtain ⟨blanks, hsplit, hblanks, -⟩ := Text.exists_blanks raw
  have hclear : Cut.Clear Written blanks (Text.trimStart raw) := by
    intro before inside part rest pair hgap hinside htext hpart
    obtain ⟨c, inside, rfl⟩ := List.exists_cons_of_ne_nil hinside
    have hblank := hblanks c (by rw [hgap]; simp)
    cases hpart with
    | @pair name value hne hname _ =>
      obtain ⟨d, name, rfl⟩ := List.exists_cons_of_ne_nil hne
      obtain ⟨rfl, -⟩ := List.cons.inj htext
      have hword := Text.isBlank_eq_false_of_isWordChar (hname c (List.mem_cons_self ..))
      rw [hblank] at hword
      cases hword
  have hpairs := pairs_append_of_clear hclear
  rw [← hsplit] at hpairs
  exact congrArg Attributes.mk hpairs.symm

end Shortcode
