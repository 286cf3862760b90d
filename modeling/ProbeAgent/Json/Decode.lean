import ProbeAgent.Json.Reader
import ProbeAgent.Text.Quoted
import ProbeAgent.Text.Shortest
import ProbeAgent.Time.Text

/-!
# Decoding documents

Readers for numbers, strings, lists, records and tagged values.  Each visits its document in order
and reports the first thing that is wrong.  A record may be written as an object, or as a list of its
fields in the order of declaration.

Texts and values differ in two points: where a record or a tagged value has too much in it, a text
has a fault of syntax, while a value does not fit.
-/

namespace ProbeAgent

inductive DocSource where
  | text
  | value
  deriving DecidableEq

inductive DecodeError where
  | fault (fault : JsonFault)
  | invalidType (found expected : String)
  | invalidValue (found expected : String)
  | invalidLength (length : Nat) (expected : String)
  | missingField (name : String)
  | duplicateField (name : String)
  | unknownVariant (name : String) (variants : List String)
  | dateTime (error : DateTimeError)
  | address
  | noVariantFits (type : String)
  deriving DecidableEq

/-- How a double is written in JSON and in messages: scientific from `1e16` up and below `1e-5`. -/
def jsonNumbers : Text.NumberFormat := ⟨-5, 15⟩

namespace DecodeError

/-- Names between accents, the way an error lists the names it would have taken. -/
def oneOf : List String → String
  | [] => "there are no variants"
  | [a] => "expected `" ++ a ++ "`"
  | [a, b] => "expected `" ++ a ++ "` or `" ++ b ++ "`"
  | names => "expected one of " ++ ", ".intercalate (names.map fun n => "`" ++ n ++ "`")

def message : DecodeError → String
  | fault f => f.message
  | invalidType found expected => "invalid type: " ++ found ++ ", expected " ++ expected
  | invalidValue found expected => "invalid value: " ++ found ++ ", expected " ++ expected
  | invalidLength length expected =>
    "invalid length " ++ toString length ++ ", expected " ++ expected
  | missingField name => "missing field `" ++ name ++ "`"
  | duplicateField name => "duplicate field `" ++ name ++ "`"
  | unknownVariant name variants => "unknown variant `" ++ name ++ "`, " ++ oneOf variants
  | dateTime error => error.message
  | address => "invalid IP address syntax"
  | noVariantFits type => "data did not match any variant of untagged enum " ++ type

end DecodeError

/-- Where the blame for an error lies: the text, its early end, or the values in it. -/
inductive ErrorCategory where
  | syntaxError
  | endOfText
  | data
  deriving DecidableEq

def DecodeError.category : DecodeError → ErrorCategory
  | fault f => if f.isEnd then .endOfText else .syntaxError
  | _ => .data

abbrev Decoded (α : Type) := Except DecodeError α

namespace Doc

def ofFault {α : Type} : Except JsonFault α → Decoded α
  | .ok a => return a
  | .error f => throw (.fault f)

def found : Doc → Decoded String
  | .null => return "null"
  | .bool b => return "boolean `" ++ toString b ++ "`"
  | .int n => return "integer `" ++ toString n ++ "`"
  | .float x => return "floating point `" ++ Text.renderDouble jsonNumbers x ++ "`"
  | .str s => return "string " ++ Text.quoted s
  | .arr .. => return "sequence"
  | .obj .. => return "map"
  | .refused fault _ => throw (.fault fault)
  | .deep inner =>
    match inner with
    | .obj .. => return "map"
    | _ => return "sequence"
  | .missing => throw (.fault .valueMissing)
  | .broken read _ => throw (.fault read)

def wrongType {α : Type} (d : Doc) (expected : String) : Decoded α := do
  throw (.invalidType (← d.found) expected)

/-! ## Plain values -/

def int? (name : String) (low high : Int) : Doc → Decoded Int
  | .int n =>
    if low ≤ n ∧ n ≤ high then return n
    else throw (.invalidValue ("integer `" ++ toString n ++ "`") name)
  | d => d.wrongType name

def uint8 (d : Doc) : Decoded UInt8 :=
  (fun n => .ofNat n.toNat) <$> int? "u8" 0 0xff d

def uint16 (d : Doc) : Decoded UInt16 :=
  (fun n => .ofNat n.toNat) <$> int? "u16" 0 0xffff d

def uint32 (d : Doc) : Decoded UInt32 :=
  (fun n => .ofNat n.toNat) <$> int? "u32" 0 0xffffffff d

def uint64 (d : Doc) : Decoded UInt64 :=
  (fun n => .ofNat n.toNat) <$> int? "u64" 0 0xffffffffffffffff d

def count (d : Doc) : Decoded UInt64 :=
  (fun n => .ofNat n.toNat) <$> int? "usize" 0 0xffffffffffffffff d

def double : Doc → Decoded Float
  | .float x => return x
  | .int n => return .ofInt n
  | d => d.wrongType "f64"

def text : Doc → Decoded String
  | .str s => return s
  | d => d.wrongType "a string"

def instant : Doc → Decoded Instant
  | .str s =>
    match Instant.parse s with
    | .ok t => return t
    | .error e => throw (.dateTime e)
  | d => d.wrongType "a formatted date and time string"

def option {α : Type} (decode : Doc → Decoded α) : Doc → Decoded (Option α)
  | .null => return none
  | d => some <$> decode d

def list {α : Type} (decode : Doc → Decoded α) : Doc → Decoded (List α)
  | .arr items fault => do
    let items ← items.mapM decode
    match fault with
    | some f => throw (.fault f.ofList)
    | none => return items
  | .deep (.arr ..) => throw (.fault .tooDeep)
  | d => d.wrongType "a sequence"

def jsonValue (d : Doc) : Decoded Json := ofFault d.json

/-! ## Records -/

/-- What becomes of a field that is not there. -/
inductive Absent where
  -- The record cannot do without.
  | refused
  -- An object may leave it out, a list may not.
  | emptyInObject
  | allowed
  deriving DecidableEq

/-- A field of a record: its name and its other names, what becomes of it when it is not there, and
a check of its value. -/
structure FieldRule where
  name : String
  aliases : List String
  absent : Absent
  check : Doc → Decoded Unit

def FieldRule.answersTo (rule : FieldRule) (key : String) : Bool :=
  rule.name == key || rule.aliases.contains key

def FieldRule.of {α : Type} (name : String) (absent : Absent) (decode : Doc → Decoded α) :
    FieldRule :=
  ⟨name, [], absent, fun d => discard (decode d)⟩

abbrev FieldValues := List (String × Doc)

namespace FieldValues

def get {α : Type} (values : FieldValues) (name : String) (default : α)
    (decode : Doc → Decoded α) : Decoded α :=
  match values.lookup name with
  | some d => decode d
  | none => return default

def require {α : Type} (values : FieldValues) (name : String) (decode : Doc → Decoded α) :
    Decoded α :=
  match values.lookup name with
  | some d => decode d
  | none => throw (.missingField name)

end FieldValues

def visitFields (rules : List FieldRule) (values : FieldValues) :
    List (Doc × Doc) → Decoded FieldValues
  | [] => return values
  | (key, value) :: rest => do
    let key ← ofFault key.key
    match rules.find? (·.answersTo key) with
    | none =>
      ofFault value.skip
      visitFields rules values rest
    | some rule =>
      if (values.lookup rule.name).isSome then throw (.duplicateField rule.name)
      rule.check value
      visitFields rules (values ++ [(rule.name, value)]) rest

def requireFields (values : FieldValues) : List FieldRule → Decoded Unit
  | [] => return ()
  | rule :: rest => do
    if rule.absent = .refused ∧ (values.lookup rule.name).isNone then
      throw (.missingField rule.name)
    requireFields values rest

/-- How messages name a record that was written as a list of the wrong length. -/
def describeLength (type : String) (length : Nat) : String :=
  type ++ " with " ++ toString length ++ (if length = 1 then " element" else " elements")

/-- Visits the items of a list that stands for a record: the fields, and what is left of the list. -/
def visitItems (type : String) (total index : Nat) (fault : Option GroupFault) :
    List FieldRule → List Doc → Decoded (FieldValues × List Doc)
  | [], items => return ([], items)
  | rule :: rules, [] => do
    match fault with
    | some f => throw (.fault f.ofList)
    | none =>
      if rule.absent = .allowed then visitItems type total (index + 1) fault rules []
      else throw (.invalidLength index (describeLength type total))
  | rule :: rules, item :: items => do
    rule.check item
    let (values, left) ← visitItems type total (index + 1) fault rules items
    return ((rule.name, item) :: values, left)

def record (source : DocSource) (name : String) (rules : List FieldRule) :
    Doc → Decoded FieldValues
  | .obj fields fault => do
    let values ← visitFields rules [] fields
    if let some f := fault then throw (.fault f.ofObject)
    requireFields values rules
    return values
  | .arr items fault => do
    let (values, left) ← visitItems ("struct " ++ name) rules.length 0 fault rules items
    unless left.isEmpty do
      match source with
      | .text => throw (.fault .trailingCharacters)
      | .value => throw (.invalidLength items.length "fewer elements in array")
    if let some f := fault then throw (.fault f.ofListEnd)
    return values
  | .deep _ => throw (.fault .tooDeep)
  | d => d.wrongType ("struct " ++ name)

/-! ## Tagged values -/

/-- A tag and what it is attached to: nothing if the tag stands alone. -/
structure Tagged where
  tag : String
  content : Option Doc
  -- What is wrong behind the content.
  fault : Option DecodeError

/-- The name in front of a tagged value in an object. -/
def tagName (key : Doc) : Decoded String :=
  match key with
  | .str s => return s
  | .refused .keyNotString found => found.wrongType "variant identifier"
  | .refused fault _ => throw (.fault fault)
  | .broken read _ => throw (.fault read)
  | d => d.wrongType "variant identifier"

/-- Splits a tagged value: a tag alone is a string, a tag with content an object of one field. -/
def tagged (source : DocSource) (d : Doc) : Decoded Tagged :=
  match d with
  | .str s => return ⟨s, none, none⟩
  | .obj fields fault =>
    match source with
    | .value =>
      match fields with
      | [(key, value)] => do return ⟨← tagName key, some value, none⟩
      | _ => throw (.invalidValue "map" "map with a single key")
    | .text =>
      match fields with
      | [] => throw (.fault (if fault.isSome then .valueMissing else .expectedValue))
      | (key, value) :: rest => do
        let fault :=
          if !rest.isEmpty then some (.fault .expectedValue)
          else fault.map (.fault ·.ofObjectEnd)
        return ⟨← tagName key, some value, fault⟩
  | .deep (.obj ..) => throw (.fault .tooDeep)
  | .refused fault (.str _) => throw (.fault fault)
  | .missing => throw (.fault .valueMissing)
  | .broken read _ => throw (.fault (if read.isBare then .expectedValue else read))
  | d =>
    match source with
    | .text => throw (.fault .expectedValue)
    | .value => d.wrongType "string or map"

def Tagged.require {α : Type} (t : Tagged) (decode : Doc → Decoded α) : Decoded α := do
  match t.content with
  | none => throw (.invalidType "unit variant" "newtype variant")
  | some d =>
    let a ← decode d
    match t.fault with
    | some e => throw e
    | none => return a

/-- A tag without content, which may also be written with `null` for its content. -/
def Tagged.bare (t : Tagged) : Decoded Unit := do
  if let some d := t.content then
    match d with
    | .null => pure ()
    | d => d.wrongType "unit"
  match t.fault with
  | some e => throw e
  | none => return ()

def choice {α : Type} (source : DocSource) (names : List (String × α)) (d : Doc) : Decoded α := do
  let t ← d.tagged source
  match names.lookup t.tag with
  | none => throw (.unknownVariant t.tag (names.map (·.1)))
  | some a =>
    t.bare
    return a

end Doc

def decodeText {α : Type} (decode : Doc → Decoded α) (text : String) : Decoded α := do
  let document := JsonDocument.parse text
  let a ← decode document.root
  if document.trailing then throw (.fault .trailingCharacters) else return a

def decodeValue {α : Type} (decode : Doc → Decoded α) (value : Json) : Decoded α :=
  decode (.ofJson value)

end ProbeAgent
