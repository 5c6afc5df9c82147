/-!
# TOML values and tables

A document is a table built one statement at a time, and TOML limits which statements may add to
which tables. A table therefore remembers how it came about. Only truth values carry their content:
no setting is a text, a number or a date.
-/

namespace BorrowFlow.Toml

/-- How a table came about, which decides what may still be added to it. -/
inductive TableKind where
  /-- It lies on the way to a table that has a header of its own. -/
  | implied
  /-- It has a header. -/
  | header
  /-- It lies on the way of a dotted key. -/
  | dotted
  /-- It stands between braces, and is complete. -/
  | inline
  deriving DecidableEq

inductive Value where
  | boolean (value : Bool)
  /-- A text, a number, a date or a time. -/
  | scalar
  | array (items : List Value)
  | table (kind : TableKind) (entries : List (String × Value))
  /-- The tables that share one doubly bracketed header, of which the last is still growing. -/
  | tables (earlier : List (List (String × Value))) (last : List (String × Value))

/-- Entries of a table, in the order of their definition. -/
abbrev Entries := List (String × Value)

/-- A key with the keys of the tables that lead to it. -/
structure Key where
  path : List String
  name : String

namespace Entries

def get? (entries : Entries) (name : String) : Option Value :=
  (entries.find? (·.1 == name)).map (·.2)

def replace (entries : Entries) (name : String) (value : Value) : Entries :=
  entries.map fun entry => if entry.1 == name then (name, value) else entry

def add (name : String) (value : Value) (entries : Entries) : Option Entries :=
  match entries.get? name with
  | none => some (entries ++ [(name, value)])
  | some _ => none

/--
Changes the table that a path leads to. Missing tables on the way are made with the given kind, and
only tables whose kind is let through are entered.
-/
def alter (fresh : TableKind) (enters : TableKind → Bool) (change : Entries → Option Entries) :
    List String → Entries → Option Entries
  | [], entries => change entries
  | name :: path, entries =>
    match entries.get? name with
    | none => do
      let inner ← alter fresh enters change path []
      some (entries ++ [(name, .table fresh inner)])
    | some (.table kind inner) => do
      guard (enters kind)
      let inner ← alter fresh enters change path inner
      some (entries.replace name (.table kind inner))
    | some (.tables earlier last) => do
      guard (enters .header)
      let last ← alter fresh enters change path last
      some (entries.replace name (.tables earlier last))
    | some _ => none

/-- Changes the table that a header's path leads to. -/
def under (path : List String) (change : Entries → Option Entries) : Entries → Option Entries :=
  alter .implied (· != .inline) change path

/-- Gives a value to a key. A dotted key adds to tables of dotted keys only. -/
def define (key : Key) (value : Value) : Entries → Option Entries :=
  alter .dotted (· == .dotted) (add key.name value) key.path

/-- Opens the table of a header, which at most an implied table may precede. -/
def openTable (key : Key) : Entries → Option Entries :=
  under key.path fun entries =>
    match entries.get? key.name with
    | none => some (entries ++ [(key.name, .table .header [])])
    | some (.table .implied inner) => some (entries.replace key.name (.table .header inner))
    | some _ => none

def openNext (key : Key) : Entries → Option Entries :=
  under key.path fun entries =>
    match entries.get? key.name with
    | none => some (entries ++ [(key.name, .tables [] [])])
    | some (.tables earlier last) =>
      some (entries.replace key.name (.tables (earlier ++ [last]) []))
    | some _ => none

end Entries

end BorrowFlow.Toml
