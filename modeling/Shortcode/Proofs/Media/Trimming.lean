import Shortcode.Media.Manifest.Basic
import Shortcode.Proofs.Text.Runs
import Shortcode.Proofs.Yaml.Margins

/-! # Trimmed manifests

A YAML manifest is trimmed before it is read. This takes off more than it has to: the indentation of
the first line, and the line ends and the other blanks of a scalar at the end. Where it only takes off
lines of spaces in front, and spaces and line ends behind, the manifest reads the same. -/

namespace Shortcode

namespace Text

/-- The blanks that trimming takes off at the start of a text. -/
def leading (text : Text) : Text :=
  text.takeWhile isBlank

/-- The blanks that trimming takes off at the end of a text. -/
def trailing (text : Text) : Text :=
  ((trimStart text).reverse.takeWhile isBlank).reverse

theorem trim_append_trailing (text : Text) : trim text ++ trailing text = trimStart text := by
  rw [trim, trimEnd, dropEndWhile, trailing, ← List.reverse_append, List.takeWhile_append_dropWhile,
    List.reverse_reverse]

theorem leading_append_trim_append_trailing (text : Text) :
    leading text ++ (trim text ++ trailing text) = text := by
  rw [trim_append_trailing]
  exact List.takeWhile_append_dropWhile

theorem isBlank_eq_false_of_mem_head?_trimStart {text : Text} {c : Char}
    (h : c ∈ (trimStart text).head?) : isBlank c = false := by
  obtain ⟨blanks, -, -, hhead⟩ := exists_blanks text
  exact hhead c h

theorem isBlank_eq_false_of_mem_getLast?_trim {text : Text} {c : Char}
    (h : c ∈ (trim text).getLast?) : isBlank c = false := by
  rw [trim, trimEnd, dropEndWhile, List.getLast?_reverse] at h
  exact isBlank_eq_false_of_mem_head?_trimStart h

end Text

namespace Manifest

open Shortcode.Yaml (isFiller isBreak endsInBlockScalar)

theorem isFiller_eq_false_of_isBlank {c : Char} (h : Text.isBlank c = false) :
    isFiller c = false := by
  refine Bool.eq_false_iff.mpr fun hfiller => ?_
  have hblank : Text.isBlank c = true :=
    Yaml.of_isFiller (p := fun c => Text.isBlank c = true) hfiller (by decide)
  rw [h] at hblank
  cases hblank

/-- Trimming a manifest leaves its records as they are, or the manifest malformed, if it takes off
nothing but spaces and line ends, if the first line is not indented, and if the manifest does not end
in a block scalar. -/
theorem records?_yaml_eq_read? {text : Text}
    (hmargins : ∀ c ∈ Text.leading text ++ Text.trailing text, isFiller c = true)
    (hflush : ∀ c ∈ (Text.leading text).getLast?, isBreak c = true)
    (hscalar : (Shortcode.Yaml.tokens? (Text.trim text)).any endsInBlockScalar = false) :
    records? .yaml text = Yaml.read? text := by
  obtain ⟨hleading, htrailing⟩ := List.forall_mem_append.mp hmargins
  have hfirst : ∀ c ∈ (Text.trim text ++ Text.trailing text).head?, isFiller c = false := by
    rw [Text.trim_append_trailing]
    exact fun c hc => isFiller_eq_false_of_isBlank (Text.isBlank_eq_false_of_mem_head?_trimStart hc)
  have hlast : ∀ c ∈ (Text.trim text).getLast?, isFiller c = false := fun c hc =>
    isFiller_eq_false_of_isBlank (Text.isBlank_eq_false_of_mem_getLast?_trim hc)
  have htokens : Shortcode.Yaml.tokens? text = Shortcode.Yaml.tokens? (Text.trim text) := by
    have := Shortcode.Yaml.tokens?_margins hleading hflush htrailing hfirst hlast hscalar
    rwa [Text.leading_append_trim_append_trailing] at this
  rw [records?, Yaml.read?, Yaml.read?, Shortcode.Yaml.read?, Shortcode.Yaml.read?, htokens]

theorem records?_yaml_of_margins :
    let text : Text := "\n  \n- id: 1\n  name: a.jpg\n  path: a.jpg \n\n".toList
    (∀ c ∈ Text.leading text ++ Text.trailing text, isFiller c = true) ∧
      (∀ c ∈ (Text.leading text).getLast?, isBreak c = true) ∧
      (Shortcode.Yaml.tokens? (Text.trim text)).any endsInBlockScalar = false ∧
      records? .yaml text = some [{ id := 1, name := "a.jpg".toList, path := "a.jpg".toList }] ∧
      records? .yaml text = Yaml.read? text := by
  intro text
  have hmargins : ∀ c ∈ Text.leading text ++ Text.trailing text, isFiller c = true :=
    List.all_eq_true.mp (by decide)
  have hflush : ∀ c ∈ (Text.leading text).getLast?, isBreak c = true := by
    rintro c ⟨⟩
    rfl
  have hscalar : (Shortcode.Yaml.tokens? (Text.trim text)).any endsInBlockScalar = false := by
    decide +kernel
  refine ⟨hmargins, hflush, hscalar, ?_, records?_yaml_eq_read? hmargins hflush hscalar⟩
  decide +kernel

/-- None of the conditions can be left out: trimming loses the indentation of the first line, the line
end of a literal scalar and a no-break space at the end of a plain one. -/
theorem records?_yaml_loses_margins :
    let record (name path : String) : MediaRecord :=
      { id := 1, name := name.toList, path := path.toList }
    let indented : Text := "  - id: 1\n    name: a\n    path: b\n".toList
    let literal : Text := "- id: 1\n  path: b\n  name: |\n    a\n".toList
    let spaced : Text := "- id: 1\n  name: a\n  path: b\u00a0\n".toList
    (Text.trim indented ≠ [] ∧ records? .yaml indented = none ∧
      Yaml.read? indented = some [record "a" "b"]) ∧
    (Text.trim literal ≠ [] ∧ records? .yaml literal = some [record "a" "b"] ∧
      Yaml.read? literal = some [record "a\n" "b"]) ∧
    (Text.trim spaced ≠ [] ∧ records? .yaml spaced = some [record "a" "b"] ∧
      Yaml.read? spaced = some [record "a" "b\u00a0"]) := by
  decide +kernel

end Manifest

end Shortcode
