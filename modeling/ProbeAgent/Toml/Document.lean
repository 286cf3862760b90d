import ProbeAgent.Toml.Number

/-!
# TOML documents

`Toml.parse?` reads a document line by line.  A reader takes something from the front of a text and
returns it with the rest.  Lists go on as long as they get shorter, so that every reader ends.
-/

namespace ProbeAgent

namespace TomlText

/-! ## Names -/

/-- A dotted name has fewer parts than this, and a value fewer brackets around it. -/
def depthLimit : Nat := 80

def isNameChar (c : Char) : Bool := c.isAlphanum || c = '-' || c = '_'

def dropBlanks (text : List Char) : List Char := text.dropWhile isBlank

def readName (text : List Char) : Option (String × List Char) :=
  (readLineText text).or <|
    let name := text.takeWhile isNameChar
    if name.isEmpty then none else some (String.ofList name, text.dropWhile isNameChar)

/-- Names separated by points; blanks may stand around each of them. -/
def readNames (text : List Char) : Option (List String × List Char) := do
  let (name, rest) ← readName (dropBlanks text)
  match dropBlanks rest with
  | '.' :: rest =>
    if rest.length < text.length then
      let (names, rest) ← readNames rest
      return (name :: names, rest)
    else none
  | rest => return ([name], rest)
termination_by text.length

def readPath (text : List Char) : Option (List String × List Char) := do
  let (path, rest) ← readNames text
  if path.length < depthLimit then return (path, rest) else none

/-! ## Values -/

def dropGaps : List Char → List Char
  | [] => []
  | '#' :: rest => dropGaps (rest.dropWhile isPlain)
  | '\r' :: '\n' :: rest => dropGaps rest
  | c :: rest => if isBlank c || c = '\n' then dropGaps rest else c :: rest
termination_by text => text.length
decreasing_by
  all_goals simp only [List.length_cons]
  · have := (rest.dropWhile_suffix isPlain).length_le
    omega
  all_goals omega

/-- The items of an array after its opening bracket.  A comma may follow the last one. -/
def readItems (readItem : List Char → Option (Toml × List Char)) (text : List Char) :
    Option (List Toml × List Char) :=
  match dropGaps text with
  | ']' :: rest => some ([], rest)
  | item => do
    let (item, rest) ← readItem item
    match dropGaps rest with
    | ']' :: rest => return ([item], rest)
    | ',' :: rest =>
      if rest.length < text.length then
        let (items, rest) ← readItems readItem rest
        return (item :: items, rest)
      else none
    | _ => none
termination_by text.length

def readPair (readItem : List Char → Option (Toml × List Char)) (text : List Char) :
    Option ((List String × Toml) × List Char) := do
  let (path, rest) ← readPath text
  let rest ← readChar '=' rest
  let (value, rest) ← readItem (dropBlanks rest)
  return ((path, value), rest)

/-- The pairs of a table that is written as a value, which stand on one line. -/
def readPairs (readItem : List Char → Option (Toml × List Char)) (entries : Toml.Entries)
    (text : List Char) : Option (Toml.Entries × List Char) := do
  let ((path, value), rest) ← readPair readItem text
  let entries ← entries.addPair path value
  match dropBlanks rest with
  | '\x7d' :: rest => return (entries, rest)
  | ',' :: rest => if rest.length < text.length then readPairs readItem entries rest else none
  | _ => none
termination_by text.length

def readValue (levels : Nat) (text : List Char) : Option (Toml × List Char) :=
  match levels, text with
  | 0, '[' :: _ => none
  | 0, '\x7b' :: _ => none
  | levels + 1, '[' :: rest => do
    let (items, rest) ← readItems (readValue levels) rest
    return (.array items, rest)
  | levels + 1, '\x7b' :: rest =>
    match dropBlanks rest with
    | '\x7d' :: rest => some (.inlineTable [], rest)
    | rest => do
      let (entries, rest) ← readPairs (readValue levels) [] rest
      return (.inlineTable entries, rest)
  | _, '"' :: rest => (readText ('"' :: rest)).map fun (s, rest) => (.string s, rest)
  | _, '\'' :: rest => (readText ('\'' :: rest)).map fun (s, rest) => (.string s, rest)
  | _, 't' :: rest => (Toml.boolean true, ·) <$> dropWord? "true" ('t' :: rest)
  | _, 'f' :: rest => (Toml.boolean false, ·) <$> dropWord? "false" ('f' :: rest)
  | _, text => readNumberOrDateTime text
termination_by levels

/-! ## Lines -/

/-- The end of a line: blanks, a comment if there is one, and a line end or the end of the text. -/
def readLineEnd (text : List Char) : Option (List Char) :=
  let rest :=
    match dropBlanks text with
    | '#' :: comment => comment.dropWhile isPlain
    | rest => rest
  if rest.isEmpty then some [] else dropLineEnd? rest

/-- A line that is not empty, without its end. -/
def readLine (text : List Char) : Option (TomlLine × List Char) :=
  match text with
  | '[' :: '[' :: rest => do
    let (path, rest) ← readPath rest
    return (.memberHeader path, ← dropWord? "]]" rest)
  | '[' :: rest => do
    let (path, rest) ← readPath rest
    return (.header path, ← readChar ']' rest)
  | text => do
    let ((path, value), rest) ← readPair (readValue (depthLimit - 1)) text
    return (.pair path value, rest)

def readLines (text : List Char) : Option (List TomlLine) :=
  match dropBlanks text with
  | [] => some []
  | line =>
    match readLineEnd line with
    | some rest => if rest.length < text.length then readLines rest else none
    | none => do
      let (line, rest) ← readLine line
      let rest ← readLineEnd rest
      if rest.length < text.length then
        let lines ← readLines rest
        return line :: lines
      else none
termination_by text.length

end TomlText

/-- The table of a document; a byte order mark may stand in front. -/
def Toml.parse? (text : String) : Option Toml.Entries :=
  let text := text.toList
  let text := if text.head? = some '\ufeff' then text.drop 1 else text
  (TomlText.readLines text).bind Toml.ofLines

end ProbeAgent
