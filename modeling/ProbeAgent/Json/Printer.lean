import ProbeAgent.Json.Decode

/-!
# From value to text

`Json.compact` writes a value on one line without blanks, `Json.pretty` one item or field per line,
indented by two blanks a level.
-/

namespace ProbeAgent.Json

def escapedChar (c : Char) : List Char :=
  if c = '"' then ['\\', '"']
  else if c = '\\' then ['\\', '\\']
  else if c = '\x08' then ['\\', 'b']
  else if c = '\t' then ['\\', 't']
  else if c = '\n' then ['\\', 'n']
  else if c = '\x0c' then ['\\', 'f']
  else if c = '\r' then ['\\', 'r']
  else if c.toNat < 0x20 then
    ['\\', 'u', '0', '0'] ++ [Nat.digitChar (c.toNat / 16), Nat.digitChar (c.toNat % 16)]
  else [c]

def quotedString (text : String) : String :=
  String.ofList ('"' :: text.toList.flatMap escapedChar ++ ['"'])

/-- The text of a number, a word or a string; lists and objects have no text here. -/
def atom : Json → String
  | .null => "null"
  | .bool b => toString b
  | .int n => toString n
  | .float x => Text.renderDouble jsonNumbers x
  | .str s => quotedString s
  | _ => ""

mutual

def compact : Json → String
  | .arr items => "[" ++ ",".intercalate (compactItems items) ++ "]"
  | .obj fields => "\x7b" ++ ",".intercalate (compactFields fields) ++ "\x7d"
  | value => value.atom

def compactItems : List Json → List String
  | [] => []
  | item :: rest => compact item :: compactItems rest

def compactFields : List (String × Json) → List String
  | [] => []
  | (key, value) :: rest => (quotedString key ++ ":" ++ compact value) :: compactFields rest

end

def indentation (level : Nat) : String :=
  String.ofList (List.replicate (2 * level) ' ')

def bracketed (opening closing : String) (level : Nat) (parts : List String) : List String :=
  if parts.isEmpty then [opening ++ closing]
  else
    let last := parts.length - 1
    let lines := parts.mapIdx fun i part =>
      indentation (level + 1) ++ part ++ (if i = last then "" else ",")
    [opening] ++ lines ++ [indentation level ++ closing]

mutual

def prettyAt (level : Nat) : Json → String
  | .arr items => "\n".intercalate (bracketed "[" "]" level (prettyItems (level + 1) items))
  | .obj fields =>
    "\n".intercalate (bracketed "\x7b" "\x7d" level (prettyFields (level + 1) fields))
  | value => value.atom

def prettyItems (level : Nat) : List Json → List String
  | [] => []
  | item :: rest => prettyAt level item :: prettyItems level rest

def prettyFields (level : Nat) : List (String × Json) → List String
  | [] => []
  | (key, value) :: rest =>
    (quotedString key ++ ": " ++ prettyAt level value) :: prettyFields level rest

end

def pretty (value : Json) : String := prettyAt 0 value

end ProbeAgent.Json
