import Shortcode.Toml.Value

/-! # Tables under construction

A document defines its tables piece by piece. A table may be defined once: a header opens a table
that is new or lies on the way to an earlier header. A dotted key only enters tables that have no
header, and no header opens a table that a dotted key has entered. -/

namespace Shortcode.Toml

namespace Entries

/-- The entries with the value of a key replaced by what `f` makes of it, or `none` where `f`
refuses. -/
def alter? (f : Option Value → Option Value) (key : Text) : Entries → Option Entries
  | [] => (f none).map fun v => [(key, v)]
  | (k, v) :: rest =>
    if k = key then (f (some v)).map fun v => (k, v) :: rest
    else (alter? f key rest).map ((k, v) :: ·)

def get? (entries : Entries) (key : Text) : Option Value :=
  entries.lookup key

/-- The entries with the table at a path replaced by what `f` makes of it. Tables that are missing
on the way are made; of tables under one header in double brackets the last one is meant. -/
def within? (dotted : Bool) (f : Origin → Entries → Option Entries) :
    List Text → Origin → Entries → Option Entries
  | [], origin, entries => f origin entries
  | key :: path, _, entries =>
    alter? (fun
      | none =>
        let origin := if dotted then Origin.dotted else .implied
        (within? dotted f path origin []).map (.table origin)
      | some (.table origin entries) =>
        if origin = .inline ∨ (dotted ∧ origin = .header) then none
        else
          let origin := if dotted then .dotted else origin
          (within? dotted f path origin entries).map (.table origin)
      | some (.tables items) =>
        match items.getLast? with
        | some last =>
          (within? dotted f path .header last).map fun t => .tables (items.dropLast ++ [t])
        | none => none
      | some _ => none) key entries

def insert? (path : List Text) (key : Text) (v : Value) : Origin → Entries → Option Entries :=
  within? true (fun origin entries =>
    if path ≠ [] ∧ origin ≠ .dotted then none
    else alter? (fun
      | none => some v
      | some _ => none) key entries) path

def openTable? (path : List Text) (key : Text) (root : Entries) : Option Entries :=
  within? false (fun _ => alter? (fun
    | none => some (.table .header [])
    | some (.table .implied entries) => some (.table .header entries)
    | some _ => none) key) path .header root

/-- The entries with one more table under a header in double brackets. -/
def openItem? (path : List Text) (key : Text) (root : Entries) : Option Entries :=
  within? false (fun _ => alter? (fun
    | none => some (.tables [[]])
    | some (.tables items) => some (.tables (items ++ [[]]))
    | some _ => none) key) path .header root

end Entries

end Shortcode.Toml
