import ProbeAgent.Json.Document
import ProbeAgent.Text.Decimal

/-!
# From text to document

`Doc.parse` never fails: faults become parts of the document.  A number without fraction and exponent
is an integer if it fits 64 bits, signed or unsigned; any other number is a double, and so is `-0`.
A double is computed from the first digits that fit 64 bits, scaled by a power of ten.
-/

namespace ProbeAgent

namespace JsonText

open Text

def isSpace (c : Char) : Bool :=
  c = ' ' || c = '\n' || c = '\t' || c = '\r'

def skipSpace (text : List Char) : List Char :=
  text.dropWhile isSpace

/-! ## Strings -/

def hexValue? (c : Char) : Option Nat :=
  if '0' ≤ c ∧ c ≤ '9' then some (c.toNat - '0'.toNat)
  else if 'a' ≤ c ∧ c ≤ 'f' then some (c.toNat - 'a'.toNat + 10)
  else if 'A' ≤ c ∧ c ≤ 'F' then some (c.toNat - 'A'.toNat + 10)
  else none

/-- The value of the four hexadecimal digits in front, which are looked for in the next four bytes. -/
def readHex (text : List Char) : Except JsonFault Nat :=
  let next := text.take 4
  if next.foldl (fun size c => size + c.utf8Size) 0 < 4 then throw .stringUnclosed
  else
    match next.map hexValue? with
    | [some a, some b, some c, some d] => return ((a * 16 + b) * 16 + c) * 16 + d
    | _ => throw .invalidEscape

def isHighSurrogate (n : Nat) : Bool := decide (0xD800 ≤ n) && decide (n ≤ 0xDBFF)

def isLowSurrogate (n : Nat) : Bool := decide (0xDC00 ≤ n) && decide (n ≤ 0xDFFF)

def joinSurrogates (high low : Nat) : Char :=
  Char.ofNat (0x10000 + (high - 0xD800) * 0x400 + (low - 0xDC00))

/-- The escaped character after `\u`, and how many characters its escape takes. -/
def readUnicodeEscape (text : List Char) : Except JsonFault (Char × Nat) := do
  let n ← readHex text
  if isLowSurrogate n then throw .loneSurrogate
  else if isHighSurrogate n then
    match text.drop 4 with
    | [] => throw .stringUnclosed
    | ['\\'] => throw .stringUnclosed
    | '\\' :: 'u' :: rest =>
      let low ← readHex rest
      if isLowSurrogate low then return (joinSurrogates n low, 10) else throw .loneSurrogate
    | _ => throw .unfinishedSurrogate
  else return (Char.ofNat n, 4)

def simpleEscape? (c : Char) : Option Char :=
  match c with
  | '"' => some '"'
  | '\\' => some '\\'
  | '/' => some '/'
  | 'b' => some '\x08'
  | 'f' => some '\x0c'
  | 'n' => some '\n'
  | 'r' => some '\r'
  | 't' => some '\t'
  | _ => none

/-- Reads a string after its opening quote; the result has the text so far in reverse. -/
def readString (text : List Char) (soFar : List Char) :
    Except JsonFault (String × List Char) :=
  match text with
  | [] => throw .stringUnclosed
  | '"' :: rest => return (String.ofList soFar.reverse, rest)
  | ['\\'] => throw .stringUnclosed
  | '\\' :: 'u' :: rest =>
    match readUnicodeEscape rest with
    | .error fault => throw fault
    | .ok (c, length) => readString (rest.drop length) (c :: soFar)
  | '\\' :: c :: rest =>
    match simpleEscape? c with
    | some c => readString rest (c :: soFar)
    | none => throw .invalidEscape
  | c :: rest =>
    if c.toNat < 0x20 then throw .controlCharacter else readString rest (c :: soFar)
termination_by text.length
decreasing_by all_goals simp_wf; try omega

/-- Passes over a string after its opening quote.  Surrogates need not be paired here. -/
def skipString : List Char → Except JsonFault (List Char)
  | [] => throw .stringUnclosed
  | '"' :: rest => return rest
  | ['\\'] => throw .stringUnclosed
  | '\\' :: 'u' :: rest =>
    match readHex rest with
    | .error fault => throw fault
    | .ok _ => skipString rest
  | '\\' :: c :: rest =>
    if (simpleEscape? c).isSome then skipString rest else throw .invalidEscape
  | c :: rest => if c.toNat < 0x20 then throw .controlCharacter else skipString rest

def stringPart (text : List Char) : Doc × List Char :=
  match readString text [], skipString text with
  | .ok (s, rest), _ => (.str s, rest)
  | .error fault, .ok rest => (.refused fault (.str ""), rest)
  | .error fault, .error skipped => (.broken fault skipped, [])

/-! ## Numbers -/

def maxWord : Nat := Nat.pow 2 64 - 1

/-- Multiplies or divides by a power of ten up to the greatest one that a double can have. -/
def scaleOnce (x : Float) (exponent : Int) : Float :=
  if 0 ≤ exponent then x * Float.ofScientific 1 false exponent.natAbs
  else x / Float.ofScientific 1 false exponent.natAbs

def scaleDown (x : Float) (exponent : Nat) : Float :=
  if exponent ≤ 308 then scaleOnce x (-(exponent : Int))
  else if x == 0.0 then x
  else scaleDown (x / 1e308) (exponent - 308)
termination_by exponent

def doubleOf (positive : Bool) (significand : Nat) (exponent : Int) : Except JsonFault Float := do
  let x := Float.ofNat significand
  let size ←
    if exponent ≤ 308 then
      if 0 ≤ exponent then
        let scaled := scaleOnce x exponent
        if scaled.isInf then throw .numberOutOfRange else pure scaled
      else pure (scaleDown x exponent.natAbs)
    else if x == 0.0 then pure x
    else throw .numberOutOfRange
  return if positive then size else -size

/-- Takes digits onto a significand while it fits 64 bits: the new significand, how many digits were
taken, and the rest. -/
def takeDigits (significand taken : Nat) : List Char → Nat × Nat × List Char
  | [] => (significand, taken, [])
  | c :: rest =>
    if c.isDigit && decide (significand * 10 + digitValue c ≤ maxWord) then
      takeDigits (significand * 10 + digitValue c) (taken + 1) rest
    else (significand, taken, c :: rest)

def startsWithDigit (text : List Char) : Bool :=
  match text with
  | c :: _ => c.isDigit
  | [] => false

/-- The greatest exponent that is added up. -/
def maxExponent : Nat := Nat.pow 2 31 - 1

def readExponent (positive : Bool) (significand : Nat) (starting : Int) (text : List Char) :
    Except JsonFault (Float × List Char) := do
  let (up, text) : Bool × List Char :=
    match text with
    | '+' :: rest => (true, rest)
    | '-' :: rest => (false, rest)
    | text => (true, text)
  if text.isEmpty then throw .valueMissing
  let (digits, rest) := spanAllDigits text
  if digits.isEmpty then throw .invalidNumber
  let exponent := digitsValue digits
  if maxExponent < exponent then
    if significand ≠ 0 ∧ up then throw .numberOutOfRange
    return (if positive then 0.0 else -0.0, rest)
  let exponent : Int := if up then starting + exponent else starting - exponent
  return (← doubleOf positive significand exponent, rest)

def readDoubleEnd (positive : Bool) (significand : Nat) (exponent : Int) (text : List Char) :
    Except JsonFault (Float × List Char) := do
  match text with
  | 'e' :: rest | 'E' :: rest => readExponent positive significand exponent rest
  | _ => return (← doubleOf positive significand exponent, text)

def readFraction (positive : Bool) (significand : Nat) (starting : Int) (text : List Char) :
    Except JsonFault (Float × List Char) := do
  let (significand, taken, rest) := takeDigits significand 0 text
  if startsWithDigit rest then
    readDoubleEnd positive significand (starting - taken) (rest.dropWhile Char.isDigit)
  else if taken = 0 then
    if rest.isEmpty then throw .valueMissing else throw .invalidNumber
  else readDoubleEnd positive significand (starting - taken) rest

def readUnsigned (positive : Bool) (text : List Char) :
    Except JsonFault (Doc × List Char) := do
  let (significand, rest) ← do
    match text with
    | [] => throw .valueMissing
    | '0' :: rest => if startsWithDigit rest then throw .invalidNumber else pure (0, rest)
    | c :: _ =>
      if !c.isDigit then throw .invalidNumber
      else
        let (significand, _, rest) := takeDigits 0 0 text
        pure (significand, rest)
  -- Digits beyond 64 bits only count as powers of ten.
  let (dropped, rest) := spanAllDigits rest
  let double : Float × List Char → Doc × List Char := fun (x, rest) => (.float x, rest)
  match rest with
  | '.' :: rest => double <$> readFraction positive significand dropped.length rest
  | 'e' :: rest | 'E' :: rest => double <$> readExponent positive significand dropped.length rest
  | _ =>
    if !dropped.isEmpty then
      return double (← doubleOf positive significand dropped.length, rest)
    else if positive then return (.int significand, rest)
    else if significand = 0 ∨ Nat.pow 2 63 < significand then
      return (.float (-(Float.ofNat significand)), rest)
    else return (.int (-(significand : Int)), rest)

def readNumber (text : List Char) : Except JsonFault (Doc × List Char) :=
  match text with
  | '-' :: rest => readUnsigned false rest
  | _ => readUnsigned true text

def skipDigits (text : List Char) : Except JsonFault (List Char) :=
  if startsWithDigit text then return text.dropWhile Char.isDigit else throw .invalidNumber

def skipExponent (text : List Char) : Except JsonFault (List Char) :=
  match text with
  | '+' :: rest | '-' :: rest => skipDigits rest
  | _ => skipDigits text

/-- Passes over a number, however large. -/
def skipNumber (text : List Char) : Except JsonFault (List Char) := do
  let text := match text with
    | '-' :: rest => rest
    | _ => text
  let rest ← match text with
    | '0' :: rest => if startsWithDigit rest then throw .invalidNumber else pure rest
    | _ => skipDigits text
  match rest with
  | '.' :: rest =>
    let rest ← skipDigits rest
    match rest with
    | 'e' :: rest | 'E' :: rest => skipExponent rest
    | _ => return rest
  | 'e' :: rest | 'E' :: rest => skipExponent rest
  | _ => return rest

def numberPart (text : List Char) : Doc × List Char :=
  match readNumber text, skipNumber text with
  | .ok part, _ => part
  | .error fault, .ok rest => (.refused fault (.int 0), rest)
  | .error fault, .error skipped => (.broken fault skipped, [])

/-! ## Values

Behind a broken part there is nothing left to read, so what the enclosing parts record there is never
reached. -/

def wordPart (word : List Char) (value : Doc) (text : List Char) : Doc × List Char :=
  match word, text with
  | [], rest => (value, rest)
  | _ :: _, [] => (.broken .valueMissing .valueMissing, [])
  | w :: ws, c :: rest =>
    if w = c then wordPart ws value rest else (.broken .expectedIdent .expectedIdent, [])

/-- Lists and objects below this many levels may only be skipped. -/
def maxDepth : Nat := 127

mutual

/-- The value in front of a text, and the rest; `fuel` bounds the characters that are left. -/
def valuePart : (fuel depth : Nat) → List Char → Doc × List Char
  | 0, _, _ => (.missing, [])
  | fuel + 1, depth, text =>
    match skipSpace text with
    | [] => (.missing, [])
    | 'n' :: rest => wordPart ['u', 'l', 'l'] .null rest
    | 't' :: rest => wordPart ['r', 'u', 'e'] (.bool true) rest
    | 'f' :: rest => wordPart ['a', 'l', 's', 'e'] (.bool false) rest
    | '"' :: rest => stringPart rest
    | '[' :: rest =>
      let (part, rest) :=
        match skipSpace rest with
        | [] => (.arr [] (some .unclosed), [])
        | ']' :: rest => (.arr [] none, rest)
        | rest => listPart fuel (depth + 1) [] rest
      (if depth < maxDepth then part else .deep part, rest)
    | '\x7b' :: rest =>
      let (part, rest) :=
        match skipSpace rest with
        | [] => (.obj [] (some .unclosed), [])
        | '\x7d' :: rest => (.obj [] none, rest)
        | rest => objectPart fuel (depth + 1) [] rest
      (if depth < maxDepth then part else .deep part, rest)
    | c :: rest =>
      if c = '-' ∨ c.isDigit then numberPart (c :: rest)
      else (.broken .expectedValue .expectedValue, [])

/-- The items of a list from the next one on; `soFar` has those before it in reverse. -/
def listPart : (fuel depth : Nat) → (soFar : List Doc) → List Char → Doc × List Char
  | 0, _, soFar, _ => (.arr soFar.reverse (some .unclosed), [])
  | fuel + 1, depth, soFar, text =>
    let (item, rest) := valuePart fuel depth text
    let soFar := item :: soFar
    match skipSpace rest with
    | [] => (.arr soFar.reverse (some .unclosed), [])
    | ']' :: rest => (.arr soFar.reverse none, rest)
    | ',' :: rest =>
      match skipSpace rest with
      | [] => (.arr soFar.reverse (some .unfinished), [])
      | ']' :: _ => (.arr soFar.reverse (some .trailingComma), [])
      | rest => listPart fuel depth soFar rest
    | _ => (.arr soFar.reverse (some .unseparated), [])

def objectPart : (fuel depth : Nat) → (soFar : List (Doc × Doc)) → List Char → Doc × List Char
  | 0, _, soFar, _ => (.obj soFar.reverse (some .unclosed), [])
  | fuel + 1, depth, soFar, text =>
    match text with
    | '"' :: rest =>
      let (key, rest) := stringPart rest
      let (value, rest) : Doc × List Char :=
        match skipSpace rest with
        | [] => (.broken .objectUnclosed .objectUnclosed, [])
        | ':' :: rest => valuePart fuel depth rest
        | _ => (.broken .expectedColon .expectedColon, [])
      let soFar := (key, value) :: soFar
      match skipSpace rest with
      | [] => (.obj soFar.reverse (some .unclosed), [])
      | '\x7d' :: rest => (.obj soFar.reverse none, rest)
      | ',' :: rest =>
        match skipSpace rest with
        | [] => (.obj soFar.reverse (some .unfinished), [])
        | '\x7d' :: _ => (.obj soFar.reverse (some .trailingComma), [])
        | rest => objectPart fuel depth soFar rest
      | _ => (.obj soFar.reverse (some .unseparated), [])
    | text =>
      let (found, _) := valuePart fuel depth text
      (.obj ((.refused .keyNotString found, .null) :: soFar).reverse none, [])

end

end JsonText

structure JsonDocument where
  root : Doc
  trailing : Bool

def JsonDocument.parse (text : String) : JsonDocument :=
  let characters := text.toList
  let (root, rest) := JsonText.valuePart (2 * characters.length + 1) 0 characters
  ⟨root, !(JsonText.skipSpace rest).isEmpty⟩

def Json.parse (text : String) : Except JsonFault Json := do
  let document := JsonDocument.parse text
  let value ← document.root.json
  if document.trailing then throw .trailingCharacters else return value

end ProbeAgent
