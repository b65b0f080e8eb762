import Shortcode.Command.Run
import Shortcode.Proofs.Config.Sources
import Shortcode.Proofs.Files.Writing

/-! # Runs of the program

Everything that a run reads, it reads from the machine as it was before the run. Only a result that
is there in whole is printed or written, so a run that fails leaves no trace but its notes. -/

namespace Shortcode.Command

/-! ### What is read -/

/-- The text at a path, or of the standard input. -/
def textAt (s : Machine) : Option Text → Except FileError Text
  | some path => s.files.read s.cwd path
  | none => FileTree.decode s.input

/-- A step answers from a machine and leaves it as it is. -/
def Reads {α : Type} (s : Machine) (x : ExceptT Text (StateM Machine) α) (answer : Except Text α) :
    Prop :=
  x.run.run s = (answer, s)

variable {α β : Type} {s : Machine}

theorem Reads.bind {x : ExceptT Text (StateM Machine) α} {answer : Except Text α}
    {f : α → ExceptT Text (StateM Machine) β} {g : α → Except Text β} (hx : Reads s x answer)
    (hf : ∀ a, Reads s (f a) (g a)) : Reads s (x >>= f) (answer >>= g) := by
  have hx : x.run.run s = (pure (answer, s) : Id _) := hx
  show (x >>= f).run.run s = _
  simp only [ExceptT.run_bind, StateT.run_bind, hx, pure_bind]
  cases answer with
  | error e => rfl
  | ok a => exact hf a

/-- The output may be the file that is read. -/
example :
    let s : Machine :=
      { files := fun place =>
          if place = [] then some .directory
          else if place = ["a".toList] then some (.file "[button]Go[/button]".toUTF8)
          else none
        cwd := []
        env := fun _ => none
        input := .empty
        random := fun _ => Vector.replicate 16 0 }
    let ran := (run (m := StateM Machine) ["render".toList, "a".toList, "-oa".toList]).run s
    ran.1 = { notes := ["Wrote a".toList] } ∧ ran.2.files.read [] "a".toList =
      .ok "<a href=\"#\" class=\"btn btn-primary\" target=\"_self\">Go</a>".toList := by
  decide +kernel

end Shortcode.Command
