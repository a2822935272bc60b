/-
TOML values, and documents while they are being put together.

* `Toml`: a finished value;
* `Toml.Entry`: what a name stands for in an unfinished document.  A table
  remembers how it came about, since that decides what may still be added to it;
* `Toml.Entries.assign`, `openTable`, `appendTable`: what a line of a document
  does.
-/

namespace QuorumStore

/-- A TOML value.  Numbers that are no integers, and dates, are not looked at. -/
inductive Toml where
  | string (s : String)
  | integer (n : Int)
  | float
  | boolean (b : Bool)
  | date
  | array (items : List Toml)
  | table (entries : List (String × Toml))

namespace Toml

instance : Inhabited Toml := ⟨float⟩

/-- How a table came about. -/
inductive Origin where
  /-- By a header of its own. -/
  | header
  /-- On the way to the table of a longer header. -/
  | path
  /-- On the way to the value of a dotted key. -/
  | dotted
  deriving DecidableEq

/-- What a name stands for in an unfinished document. -/
inductive Entry where
  /-- A value, which is finished. -/
  | value (v : Toml)
  /-- A table. -/
  | table (origin : Origin) (entries : List (String × Entry))
  /-- A list of tables, the latest first. -/
  | tables (items : List (List (String × Entry)))

/-- The names of an unfinished table with what they stand for. -/
abbrev Entries := List (String × Entry)

namespace Entries

/-- What a name stands for. -/
def find? (es : Entries) (name : String) : Option Entry :=
  (List.find? (fun p => p.1 = name) es).map Prod.snd

/-- Lets a name stand for something, in its old place or at the end. -/
def put (es : Entries) (name : String) (e : Entry) : Entries :=
  match es with
  | [] => [(name, e)]
  | p :: rest => if p.1 = name then (name, e) :: rest else p :: put rest name e

/-- Changes the table at the end of a path.  Tables that are missing on the way
are made with the given origin; of a list of tables the latest is meant.  On the
way of a dotted key no table may lie that has a header of its own.  `act` is told
the origin of the table that it changes; that of a list is a header. -/
def descend (made : Origin) (act : Origin → Entries → Option Entries) (origin : Origin) :
    List String → Entries → Option Entries
  | [], es => act origin es
  | name :: rest, es =>
    match es.find? name with
    | none => (descend made act made rest []).map fun inner => es.put name (.table made inner)
    | some (.value _) => none
    | some (.table o inner) =>
      if made = .dotted ∧ o = .header then none
      else (descend made act o rest inner).map fun inner => es.put name (.table o inner)
    | some (.tables []) => none
    | some (.tables (inner :: older)) =>
      (descend made act .header rest inner).map fun inner => es.put name (.tables (inner :: older))

/-- Gives a name its value.  A name has one value only. -/
def define (name : String) (v : Toml) (es : Entries) : Option Entries :=
  match es.find? name with
  | none => some (es.put name (.value v))
  | some _ => none

/-- Assigns a value to a key.  The table that holds it must have come about by
dotted keys exactly if the key is dotted. -/
def assign (path : List String) (name : String) (v : Toml) (origin : Origin) (es : Entries) :
    Option Entries :=
  descend .dotted
    (fun o es => if o = .dotted ↔ path = [] then none else define name v es) origin path es

/-- Opens the table of a header.  It may exist already if it lay on the way to
another table. -/
def openTable (name : String) (es : Entries) : Option Entries :=
  match es.find? name with
  | none => some (es.put name (.table .header []))
  | some (.table .path inner) => some (es.put name (.table .header inner))
  | some _ => none

/-- Appends a table to a list of tables. -/
def appendTable (name : String) (es : Entries) : Option Entries :=
  match es.find? name with
  | none => some (es.put name (.tables [[]]))
  | some (.tables items) => some (es.put name (.tables ([] :: items)))
  | some _ => none

end Entries

mutual

/-- What a name stands for once the document is finished. -/
def Entry.finish : Entry → Toml
  | .value v => v
  | .table _ es => .table (finishEntries es)
  | .tables items => .array (finishTables items).reverse

/-- The names of a table with their finished values. -/
def finishEntries : List (String × Entry) → List (String × Toml)
  | [] => []
  | (name, e) :: rest => (name, e.finish) :: finishEntries rest

/-- Finished tables. -/
def finishTables : List (List (String × Entry)) → List Toml
  | [] => []
  | es :: rest => .table (finishEntries es) :: finishTables rest

end

/-- The value of a name of a table. -/
def lookup? (entries : List (String × Toml)) (name : String) : Option Toml :=
  (entries.find? fun p => p.1 = name).map Prod.snd

end Toml

end QuorumStore
