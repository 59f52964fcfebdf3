/-!
Values of the TOML format, and how the lines of a document build up its tables. A table may be
defined once. One that a header only names on the way to another may still be defined; one that
dotted keys make grows only by dotted keys; one written between braces is closed.
-/

set_option autoImplicit false

namespace PoolQuote

inductive TableKind
  | header
  | implicit
  | dotted
  | closed
  deriving DecidableEq, Repr

inductive Toml
  | string (text : String)
  | integer (value : Int)
  | other
  | array (items : List Toml)
  | table (kind : TableKind) (entries : List (String × Toml))
  | tables (items : List (List (String × Toml)))

namespace Toml

abbrev Entries := List (String × Toml)

namespace Entries

def put (entries : Entries) (key : String) (value : Toml) : Entries :=
  if (entries.lookup key).isSome then
    entries.map fun (name, old) => (name, if name = key then value else old)
  else entries ++ [(key, value)]

def changeLast (change : Entries → Option Entries) (items : List Entries) :
    Option (List Entries) := do
  let last ← items.getLast?
  return items.dropLast ++ [← change last]

-- Enters a value under a dotted key: the steps of the key and its last part. The steps pass through
-- tables that are not defined by a header of their own; the last table must be one that only dotted
-- keys make.
def enter (value : Toml) (entries : Entries) : List String → String → Option Entries
  | [], key =>
      if (entries.lookup key).isSome then none else some (entries ++ [(key, value)])
  | step :: steps, key =>
      let inside (kind : TableKind) (inner : Entries) : Option Entries :=
        if steps.isEmpty ∧ kind ≠ .dotted then none else enter value inner steps key
      match entries.lookup step with
      | none => do return entries ++ [(step, .table .dotted (← inside .dotted []))]
      | some (.table .implicit inner) => do
          return put entries step (.table .implicit (← inside .implicit inner))
      | some (.table .dotted inner) => do
          return put entries step (.table .dotted (← inside .dotted inner))
      | some (.tables items) => do
          return put entries step (.tables (← changeLast (inside .header) items))
      | _ => none

-- Applies a change to the table that the steps of a header lead to. Missing tables are made on the
-- way, and of an array of tables the last one counts.
def change (act : Entries → Option Entries) (entries : Entries) : List String → Option Entries
  | [] => act entries
  | step :: steps =>
      match entries.lookup step with
      | none => do return entries ++ [(step, .table .implicit (← change act [] steps))]
      | some (.table .closed _) => none
      | some (.table kind inner) => do
          return put entries step (.table kind (← change act inner steps))
      | some (.tables items) => do
          return put entries step
            (.tables (← changeLast (fun inner => change act inner steps) items))
      | _ => none

def openTable (key : String) (entries : Entries) : Option Entries :=
  match entries.lookup key with
  | none => some (entries ++ [(key, .table .header [])])
  | some (.table .implicit inner) => some (put entries key (.table .header inner))
  | _ => none

def openItem (key : String) (entries : Entries) : Option Entries :=
  match entries.lookup key with
  | none => some (entries ++ [(key, .tables [[]])])
  | some (.tables items) => some (put entries key (.tables (items ++ [[]])))
  | _ => none

end Entries

end Toml

end PoolQuote
