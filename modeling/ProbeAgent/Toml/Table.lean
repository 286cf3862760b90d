/-!
# The items of a TOML document

A `Toml` is what a name of a document stands for.  A document is a list of lines: headers of tables,
headers of further members of an array of tables, and pairs of a name and a value.  `Toml.ofLines`
puts them together.  How a table came about decides what may be added to it later: a table that was
written out is complete, so no later line may open it again.

Fractions and date-times are kept without their value, since no setting is one.
-/

namespace ProbeAgent

/-- How a table came about. -/
inductive TableOrigin where
  -- A header named it.
  | written
  -- The header of a table inside it named it on the way.
  | implied
  -- A dotted name of a pair named it on the way.
  | dotted
  deriving DecidableEq, Repr

inductive Toml where
  | boolean (b : Bool)
  | integer (n : Int)
  | fraction
  | dateTime
  | string (s : String)
  | array (items : List Toml)
  -- A table written as a value.  It takes no additions at all.
  | inlineTable (entries : List (String × Toml))
  | table (origin : TableOrigin) (entries : List (String × Toml))
  -- An array of tables whose members have headers of their own, the latest first.
  | tables (latest : List (String × Toml)) (earlier : List (List (String × Toml)))

/-- A line of a document.  A path is the names of a dotted name. -/
inductive TomlLine where
  | header (path : List String)
  | memberHeader (path : List String)
  | pair (path : List String) (value : Toml)

namespace Toml

abbrev Entries := List (String × Toml)

namespace Entries

/-- Gives a name its item: in the place of the item it had, else at the end. -/
def put (entries : Entries) (name : String) (item : Toml) : Entries :=
  match entries with
  | [] => [(name, item)]
  | (other, old) :: rest =>
    if other = name then (name, item) :: rest else (other, old) :: put rest name item

/-- Adds a pair under a dotted name.  The tables on the way must not be written out, and the last
of them must itself come from a dotted name. -/
def addPair (entries : Entries) (path : List String) (value : Toml) : Option Entries :=
  match path with
  | [] => none
  | [name] => if (entries.lookup name).isSome then none else some (entries ++ [(name, value)])
  | name :: path@(_ :: deeper) =>
    match entries.lookup name with
    | none => (fun inner => entries ++ [(name, .table .dotted inner)]) <$> addPair [] path value
    | some (.table origin inner) =>
      if origin = .written ∨ (deeper = [] ∧ origin ≠ .dotted) then none
      else (fun inner => entries.put name (.table origin inner)) <$> addPair inner path value
    | some (.tables latest earlier) =>
      if deeper = [] then none
      else (fun latest => entries.put name (.tables latest earlier)) <$> addPair latest path value
    | some _ => none

/-- Changes the table that holds the last name of a header's path.  The way leads through tables of
any origin and through the latest members of arrays of tables; missing tables are implied. -/
def atHeader (entries : Entries) (path : List String)
    (change : Entries → String → Option Entries) : Option Entries :=
  match path with
  | [] => none
  | [name] => change entries name
  | name :: path@(_ :: _) =>
    match entries.lookup name with
    | none => (fun inner => entries ++ [(name, .table .implied inner)]) <$> atHeader [] path change
    | some (.table origin inner) =>
      (fun inner => entries.put name (.table origin inner)) <$> atHeader inner path change
    | some (.tables latest earlier) =>
      (fun latest => entries.put name (.tables latest earlier)) <$> atHeader latest path change
    | some _ => none

/-- Writes out a table, which may at most have been implied before. -/
def addTable (body : Entries → Option Entries) (entries : Entries) (name : String) :
    Option Entries :=
  match entries.lookup name with
  | none => (fun inner => entries.put name (.table .written inner)) <$> body []
  | some (.table .implied inner) =>
    (fun inner => entries.put name (.table .written inner)) <$> body inner
  | some _ => none

def addMember (body : Entries → Option Entries) (entries : Entries) (name : String) :
    Option Entries :=
  match entries.lookup name with
  | none => (fun inner => entries.put name (.tables inner [])) <$> body []
  | some (.tables latest earlier) =>
    (fun inner => entries.put name (.tables inner (latest :: earlier))) <$> body []
  | some _ => none

end Entries

def addPairs (lines : List TomlLine) (entries : Entries) : Option Entries :=
  match lines with
  | .pair path value :: lines => (entries.addPair path value).bind (addPairs lines)
  | _ => some entries

def addLines (lines : List TomlLine) (entries : Entries) : Option Entries :=
  match lines with
  | [] => some entries
  | .pair _ _ :: lines => addLines lines entries
  | .header path :: lines =>
    (entries.atHeader path (Entries.addTable (addPairs lines))).bind (addLines lines)
  | .memberHeader path :: lines =>
    (entries.atHeader path (Entries.addMember (addPairs lines))).bind (addLines lines)

def ofLines (lines : List TomlLine) : Option Entries :=
  (addPairs lines []).bind (addLines lines)

end Toml

end ProbeAgent
