import ProbeAgent.Text.Hex

/-!
# Quoted text in TOML

A text stands between double quotes, where a backslash starts an escape, or between single quotes,
where it is taken as it is.  Three quotes in place of one let it run over several lines.  A reader
takes a text from the front and returns it with the rest, or nothing if there is no such text.
-/

namespace ProbeAgent

namespace TomlText

def isBlank (c : Char) : Bool := c = ' ' || c = '\t'

/-- Characters that stand for themselves in texts and comments: all but controls other than tab. -/
def isPlain (c : Char) : Bool := c = '\t' || (decide (' ' ≤ c) && c ≠ '\x7f')

def dropLineEnd? : List Char → Option (List Char)
  | '\n' :: rest => some rest
  | '\r' :: '\n' :: rest => some rest
  | _ => none

def dropBlankLines : List Char → List Char
  | '\r' :: '\n' :: rest => dropBlankLines rest
  | c :: rest => if isBlank c || c = '\n' then dropBlankLines rest else c :: rest
  | [] => []

theorem length_dropBlankLines_le (text : List Char) :
    (dropBlankLines text).length ≤ text.length := by
  fun_induction dropBlankLines text <;> simp_all <;> omega

def isHexDigit (c : Char) : Bool :=
  c.isDigit || (decide ('a' ≤ c) && decide (c ≤ 'f')) || (decide ('A' ≤ c) && decide (c ≤ 'F'))

/-- The character whose code point is the hexadecimal number of so many digits in front. -/
def codePoint? (width : Nat) (text : List Char) : Option Char :=
  let digits := text.take width
  let n := digits.foldl (fun n c => 16 * n + Text.hexValue c) 0
  if digits.length = width ∧ digits.all isHexDigit ∧ n.isValidChar then some (Char.ofNat n)
  else none

/-- The character of an escape after its backslash, and how many characters the escape takes. -/
def escape? : List Char → Option (Char × Nat)
  | 'b' :: _ => some ('\x08', 1)
  | 't' :: _ => some ('\t', 1)
  | 'n' :: _ => some ('\n', 1)
  | 'f' :: _ => some ('\x0c', 1)
  | 'r' :: _ => some ('\r', 1)
  | '"' :: _ => some ('"', 1)
  | '\\' :: _ => some ('\\', 1)
  | 'u' :: rest => (·, 5) <$> codePoint? 4 rest
  | 'U' :: rest => (·, 9) <$> codePoint? 8 rest
  | _ => none

/-- Whether a backslash in front of this text ends its line, so that the text goes on at the next
character that is neither blank nor line end. -/
def endsLine (text : List Char) : Bool := (dropLineEnd? (text.dropWhile isBlank)).isSome

/-- The end of a text after its three closing quotes: up to two more quotes belong to the text. -/
def closeLines (quote : Char) (soFar rest : List Char) : String × List Char :=
  let more := (rest.take 2).takeWhile (· = quote)
  (String.ofList (soFar.reverse ++ more), rest.drop more.length)

def readEscaped (text soFar : List Char) : Option (String × List Char) :=
  match text with
  | [] => none
  | '"' :: rest => some (String.ofList soFar.reverse, rest)
  | '\\' :: rest =>
    match escape? rest with
    | some (c, length) => readEscaped (rest.drop length) (c :: soFar)
    | none => none
  | c :: rest => if isPlain c then readEscaped rest (c :: soFar) else none
termination_by text.length
decreasing_by all_goals simp_wf; try omega

def readEscapedLines (text soFar : List Char) : Option (String × List Char) :=
  match text with
  | [] => none
  | '"' :: '"' :: '"' :: rest => some (closeLines '"' soFar rest)
  | '\\' :: rest =>
    if endsLine rest then readEscapedLines (dropBlankLines rest) soFar
    else
      match escape? rest with
      | some (c, length) => readEscapedLines (rest.drop length) (c :: soFar)
      | none => none
  | '\r' :: '\n' :: rest => readEscapedLines rest ('\n' :: soFar)
  | c :: rest =>
    if isPlain c || c = '\n' then readEscapedLines rest (c :: soFar) else none
termination_by text.length
decreasing_by
  all_goals simp only [List.length_cons, List.length_drop]
  · have := length_dropBlankLines_le rest
    omega
  all_goals omega

def readLiteral (text soFar : List Char) : Option (String × List Char) :=
  match text with
  | [] => none
  | '\'' :: rest => some (String.ofList soFar.reverse, rest)
  | c :: rest => if isPlain c then readLiteral rest (c :: soFar) else none

def readLiteralLines (text soFar : List Char) : Option (String × List Char) :=
  match text with
  | [] => none
  | '\'' :: '\'' :: '\'' :: rest => some (closeLines '\'' soFar rest)
  | '\r' :: '\n' :: rest => readLiteralLines rest ('\n' :: soFar)
  | c :: rest =>
    if isPlain c || c = '\n' then readLiteralLines rest (c :: soFar) else none

/-- The first line end after three opening quotes is not part of the text. -/
def afterOpening (text : List Char) : List Char := (dropLineEnd? text).getD text

def readLineText : List Char → Option (String × List Char)
  | '"' :: rest => readEscaped rest []
  | '\'' :: rest => readLiteral rest []
  | _ => none

def readText : List Char → Option (String × List Char)
  | '"' :: '"' :: '"' :: rest => readEscapedLines (afterOpening rest) []
  | '\'' :: '\'' :: '\'' :: rest => readLiteralLines (afterOpening rest) []
  | text => readLineText text

end TomlText

end ProbeAgent
