import Dialogue.Table

set_option autoImplicit false

namespace Dialogue

namespace Toml

/-- How a table came about, which decides what may still be added to it. -/
inductive Origin where
  /-- It has a header. -/
  | header
  /-- It is named on the way to another header. -/
  | implied
  /-- It is named on the way to a pair. -/
  | dotted
  /-- It is written in braces. -/
  | inline
  deriving DecidableEq, Repr

end Toml

inductive Toml where
  | bool (value : Bool)
  | number (value : Float)
  | text (value : String)
  /-- A date, a time or both, in its standard spelling. -/
  | date (shown : String)
  | array (items : List Toml)
  | table (origin : Toml.Origin) (entries : List (String × Toml))
  /-- Tables under one name, the newest first. -/
  | tables (members : List (List (String × Toml)))

namespace Toml

abbrev Entries := List (String × Toml)

/-- A name of names, from the outside in. -/
abbrev Key := List String

inductive Statement where
  | header (key : Key)
  /-- A header that adds a table to those under its name. -/
  | member (key : Key)
  | pair (key : Key) (value : Toml)

/-- Puts a value under a key. What the key names on the way must not be closed, and the last name
must be free. -/
def put (value : Toml) : Key → Entries → Option Entries
  | [], _ => none
  | [name], entries =>
      if (Table.lookup name entries).isSome then none else some (Table.place name value entries)
  | name :: next :: rest, entries =>
      match Table.lookup name entries with
      | none => (put value (next :: rest) []).map fun inner =>
          Table.place name (.table .dotted inner) entries
      | some (.table .dotted inner) => (put value (next :: rest) inner).map fun inner =>
          Table.place name (.table .dotted inner) entries
      | some (.table .implied inner) =>
          if rest.isEmpty then none
          else (put value (next :: rest) inner).map fun inner =>
            Table.place name (.table .implied inner) entries
      | some (.tables (newest :: older)) =>
          if rest.isEmpty then none
          else (put value (next :: rest) newest).map fun newest =>
            Table.place name (.tables (newest :: older)) entries
      | some _ => none

/-- Changes the table that headers lead to. Tables on the way are made where they are missing. -/
def alter (change : Entries → Option Entries) : Key → Entries → Option Entries
  | [], entries => change entries
  | name :: rest, entries =>
      match Table.lookup name entries with
      | none => (alter change rest []).map fun inner =>
          Table.place name (.table .implied inner) entries
      | some (.table .inline _) => none
      | some (.table origin inner) => (alter change rest inner).map fun inner =>
          Table.place name (.table origin inner) entries
      | some (.tables (newest :: older)) => (alter change rest newest).map fun newest =>
          Table.place name (.tables (newest :: older)) entries
      | some _ => none

/-- Opens the table of a name. -/
def openTable (name : String) (entries : Entries) : Option Entries :=
  match Table.lookup name entries with
  | none => some (Table.place name (.table .header []) entries)
  | some (.table .implied inner) => some (Table.place name (.table .header inner) entries)
  | some _ => none

/-- Opens one more table under a name. -/
def openMember (name : String) (entries : Entries) : Option Entries :=
  match Table.lookup name entries with
  | none => some (Table.place name (.tables [[]]) entries)
  | some (.tables members) => some (Table.place name (.tables ([] :: members)) entries)
  | some _ => none

/-- A document that is being built. -/
structure Draft where
  entries : Entries
  /-- Where pairs are put. -/
  current : Key

def Draft.empty : Draft :=
  ⟨[], []⟩

def Draft.add (d : Draft) : Statement → Option Draft
  | .header key => do
      let name ← key.getLast?
      let entries ← alter (openTable name) key.dropLast d.entries
      return ⟨entries, key⟩
  | .member key => do
      let name ← key.getLast?
      let entries ← alter (openMember name) key.dropLast d.entries
      return ⟨entries, key⟩
  | .pair key value => do
      let entries ← alter (put value key) d.current d.entries
      return { d with entries := entries }

/-- The table that a sequence of statements builds. -/
def ofStatements? (statements : List Statement) : Option Entries :=
  (statements.foldlM Draft.add .empty).map Draft.entries

/-- A table written in braces. -/
def ofPairs? (pairs : List (Key × Toml)) : Option Entries :=
  pairs.foldlM (fun entries pair => put pair.2 pair.1 entries) []

/-- The name under which a date is listed where a table is asked for. -/
def dateName : String :=
  "$__toml_private_datetime"

/-- The entries of a value that counts as a table. -/
def asEntries? : Toml → Option Entries
  | table _ entries => some entries
  | date shown => some [(dateName, .text shown)]
  | _ => none

/-- The items of a value that counts as a list. -/
def asItems? : Toml → Option (List Toml)
  | array items => some items
  | tables members => some (members.reverse.map (.table .header ·))
  | _ => none

end Toml

end Dialogue
