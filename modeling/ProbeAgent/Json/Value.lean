/-!
# JSON values

A number is an integer or a double, as it was written; `1` and `1.0` are different values.  An
object keeps its fields in a list.  `Json.insertField` keeps such a list sorted by key with one
field per key, which is the form of every object that has been read as a value; `Json.sorted` brings
a whole value into that form.
-/

namespace ProbeAgent

inductive Json where
  | null
  | bool (value : Bool)
  | int (value : Int)
  | float (value : Float)
  | str (value : String)
  | arr (items : List Json)
  | obj (fields : List (String × Json))
  deriving Inhabited

namespace Json

/-- Adds a field to sorted fields; the field that had the key is replaced. -/
def insertField (key : String) (value : Json) : List (String × Json) → List (String × Json)
  | [] => [(key, value)]
  | (k, v) :: rest =>
    if key < k then (key, value) :: (k, v) :: rest
    else if key = k then (key, value) :: rest
    else (k, v) :: insertField key value rest

def ofFields (fields : List (String × Json)) : Json :=
  .obj (fields.foldl (fun sorted (key, value) => insertField key value sorted) [])

mutual

/-- The value with the fields of every object sorted; of fields with one key the last is kept. -/
def sorted : Json → Json
  | .arr items => .arr (sortedItems items)
  | .obj fields => .ofFields (sortedFields fields)
  | .null => .null
  | .bool b => .bool b
  | .int n => .int n
  | .float x => .float x
  | .str s => .str s

def sortedItems : List Json → List Json
  | [] => []
  | item :: rest => sorted item :: sortedItems rest

def sortedFields : List (String × Json) → List (String × Json)
  | [] => []
  | (key, value) :: rest => (key, sorted value) :: sortedFields rest

end

def get? (key : String) : Json → Option Json
  | .obj fields => fields.lookup key
  | _ => none

def str? : Json → Option String
  | .str s => some s
  | _ => none

def optionalField (key : String) (value : Option Json) : List (String × Json) :=
  match value with
  | some v => [(key, v)]
  | none => []

def ofOption (value : Option Json) : Json :=
  value.getD .null

def ofNat (n : Nat) : Json := .int n

/-- A double as a value: infinities and NaN have none. -/
def ofFloat (x : Float) : Json :=
  if x.isFinite then .float x else .null

end Json

end ProbeAgent
