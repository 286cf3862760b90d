import ProbeAgent.Json.Value

/-!
# JSON documents as they are read

A text is decoded from front to back, and the first thing wrong with it is reported, be it a fault
of the text or a value that does not fit.  So a `Doc` is the tree of a text in document order, which
also holds the faults, each at its place.  Some faults count only where a part is read and not where
it is skipped as the value of an unknown key.

A `Json` value is a `Doc` without faults.
-/

namespace ProbeAgent

inductive JsonFault where
  | listUnclosed
  | objectUnclosed
  | stringUnclosed
  | valueMissing
  | expectedColon
  | expectedListComma
  | expectedObjectComma
  | expectedIdent
  | expectedValue
  | invalidEscape
  | invalidNumber
  | numberOutOfRange
  | controlCharacter
  | keyNotString
  | loneSurrogate
  | trailingComma
  | trailingCharacters
  | unfinishedSurrogate
  | tooDeep
  deriving DecidableEq, Repr

namespace JsonFault

def message : JsonFault → String
  | listUnclosed => "EOF while parsing a list"
  | objectUnclosed => "EOF while parsing an object"
  | stringUnclosed => "EOF while parsing a string"
  | valueMissing => "EOF while parsing a value"
  | expectedColon => "expected `:`"
  | expectedListComma => "expected `,` or `]`"
  | expectedObjectComma => "expected `,` or `\x7d`"
  | expectedIdent => "expected ident"
  | expectedValue => "expected value"
  | invalidEscape => "invalid escape"
  | invalidNumber => "invalid number"
  | numberOutOfRange => "number out of range"
  | controlCharacter =>
    "control character (\\u0000-\\u001F) found while parsing a string"
  | keyNotString => "key must be a string"
  | loneSurrogate => "lone leading surrogate in hex escape"
  | trailingComma => "trailing comma"
  | trailingCharacters => "trailing characters"
  | unfinishedSurrogate => "unexpected end of hex escape"
  | tooDeep => "recursion limit exceeded"

def isBare : JsonFault → Bool
  | valueMissing | expectedIdent | invalidNumber | numberOutOfRange => true
  | _ => false

def isEnd : JsonFault → Bool
  | listUnclosed | objectUnclosed | stringUnclosed | valueMissing => true
  | _ => false

end JsonFault

/-- What is wrong where a list or an object should go on or end. -/
inductive GroupFault where
  -- The text ends before a separator or bracket.
  | unclosed
  -- Neither a separator nor a bracket.
  | unseparated
  -- A bracket after a separator.
  | trailingComma
  -- The text ends after a separator.
  | unfinished
  deriving DecidableEq, Repr

namespace GroupFault

def ofList : GroupFault → JsonFault
  | unclosed => .listUnclosed
  | unseparated => .expectedListComma
  | trailingComma => .trailingComma
  | unfinished => .valueMissing

def ofSkippedList : GroupFault → JsonFault
  | trailingComma => .expectedValue
  | fault => fault.ofList

def ofListEnd : GroupFault → JsonFault
  | unclosed => .listUnclosed
  | trailingComma => .trailingComma
  | unseparated | unfinished => .trailingCharacters

def ofObject : GroupFault → JsonFault
  | unclosed => .objectUnclosed
  | unseparated => .expectedObjectComma
  | trailingComma => .trailingComma
  | unfinished => .valueMissing

def ofSkippedObject : GroupFault → JsonFault
  | trailingComma => .keyNotString
  | unfinished => .objectUnclosed
  | fault => fault.ofObject

/-- The fault of an object that should have ended after its only field. -/
def ofObjectEnd : GroupFault → JsonFault
  | unclosed => .objectUnclosed
  | _ => .expectedValue

end GroupFault

inductive Doc where
  | null
  | bool (value : Bool)
  | int (value : Int)
  | float (value : Float)
  | str (value : String)
  | arr (items : List Doc) (fault : Option GroupFault)
  -- Keys are documents too, since a text may have anything in their place.
  | obj (fields : List (Doc × Doc)) (fault : Option GroupFault)
  -- A part that may be skipped but not read.
  | refused (fault : JsonFault) (inner : Doc)
  -- A list or object below the deepest level that may be read.
  | deep (inner : Doc)
  -- The text ends where a value should start.
  | missing
  -- A part that can neither be read nor skipped, with the fault of either.
  | broken (read skipped : JsonFault)
  deriving Inhabited

namespace Doc

/-! ## Values as documents -/

mutual

def ofJson : Json → Doc
  | .null => .null
  | .bool b => .bool b
  | .int n => .int n
  | .float x => .float x
  | .str s => .str s
  | .arr items => .arr (ofItems items) none
  | .obj fields => .obj (ofFields fields) none

def ofItems : List Json → List Doc
  | [] => []
  | item :: rest => ofJson item :: ofItems rest

def ofFields : List (String × Json) → List (Doc × Doc)
  | [] => []
  | (key, value) :: rest => (.str key, ofJson value) :: ofFields rest

end

/-! ## Skipping -/

def skipKey : Doc → Except JsonFault Unit
  | .str _ => return ()
  | .refused _ (.str _) => return ()
  | .broken _ skipped => throw skipped
  | _ => throw .keyNotString

mutual

def skip : Doc → Except JsonFault Unit
  | .arr items fault => do
    skipItems items
    match fault with
    | some f => throw f.ofSkippedList
    | none => return ()
  | .obj fields fault => do
    skipFields fields
    match fault with
    | some f => throw f.ofSkippedObject
    | none => return ()
  | .refused _ inner => skip inner
  | .deep inner => skip inner
  | .missing => throw .valueMissing
  | .broken _ skipped => throw skipped
  | _ => return ()

def skipItems : List Doc → Except JsonFault Unit
  | [] => return ()
  | item :: rest => do
    skip item
    skipItems rest

def skipFields : List (Doc × Doc) → Except JsonFault Unit
  | [] => return ()
  | (key, value) :: rest => do
    skipKey key
    skip value
    skipFields rest

end

def key : Doc → Except JsonFault String
  | .str s => return s
  | .refused fault _ => throw fault
  | .broken read _ => throw read
  | _ => throw .keyNotString

/-! ## Reading values -/

mutual

/-- Reads a part as a value: objects get sorted keys, of which the last of each is kept. -/
def json : Doc → Except JsonFault Json
  | .null => return .null
  | .bool b => return .bool b
  | .int n => return .int n
  | .float x => return .float x
  | .str s => return .str s
  | .arr items fault => do
    let items ← jsonItems items
    match fault with
    | some f => throw f.ofList
    | none => return .arr items
  | .obj fields fault => do
    let fields ← jsonFields fields
    match fault with
    | some f => throw f.ofObject
    | none => return .ofFields fields
  | .refused fault _ => throw fault
  | .deep _ => throw .tooDeep
  | .missing => throw .valueMissing
  | .broken read _ => throw read

def jsonItems : List Doc → Except JsonFault (List Json)
  | [] => return []
  | item :: rest => do
    let item ← json item
    let rest ← jsonItems rest
    return item :: rest

def jsonFields : List (Doc × Doc) → Except JsonFault (List (String × Json))
  | [] => return []
  | (key, value) :: rest => do
    let key ← key.key
    let value ← json value
    let rest ← jsonFields rest
    return (key, value) :: rest

end

end Doc

end ProbeAgent
