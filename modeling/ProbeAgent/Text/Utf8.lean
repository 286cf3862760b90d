/-!
# UTF-8

`encode` is the UTF-8 form of a text.  `decodeLossy` reads any bytes: wherever they stop being UTF-8,
the longest piece that could still have become a character counts as one replacement character.
-/

namespace ProbeAgent.Text

abbrev Bytes := List UInt8

def encode (text : String) : Bytes :=
  text.toList.flatMap String.utf8EncodeChar

/-- The character that stands for bytes without meaning. -/
def replacement : Char := '\ufffd'

def isTail (b : UInt8) : Bool :=
  decide (0x80 ≤ b.toNat) && decide (b.toNat < 0xc0)

def tailBits (b : UInt8) : Nat := b.toNat % 64

/-- Whether `b` may follow the first byte `a` of three. -/
def isSecondOfThree (a b : UInt8) : Bool :=
  if a = 0xe0 then decide (0xa0 ≤ b.toNat) && decide (b.toNat ≤ 0xbf)
  else if a = 0xed then decide (0x80 ≤ b.toNat) && decide (b.toNat ≤ 0x9f)
  else isTail b

def isSecondOfFour (a b : UInt8) : Bool :=
  if a = 0xf0 then decide (0x90 ≤ b.toNat) && decide (b.toNat ≤ 0xbf)
  else if a = 0xf4 then decide (0x80 ≤ b.toNat) && decide (b.toNat ≤ 0x8f)
  else isTail b

/-- The first character, or a replacement for the piece that is none, and the rest. -/
def readChar (a : UInt8) (rest : Bytes) : Char × Bytes :=
  let n := a.toNat
  if n < 0x80 then (Char.ofNat n, rest)
  else if 0xc2 ≤ n ∧ n ≤ 0xdf then
    match rest with
    | b :: rest' =>
      if isTail b then (Char.ofNat (n % 32 * 64 + tailBits b), rest') else (replacement, rest)
    | [] => (replacement, rest)
  else if 0xe0 ≤ n ∧ n ≤ 0xef then
    match rest with
    | b :: rest' =>
      if isSecondOfThree a b then
        match rest' with
        | c :: rest'' =>
          if isTail c then
            (Char.ofNat ((n % 16 * 64 + tailBits b) * 64 + tailBits c), rest'')
          else (replacement, rest')
        | [] => (replacement, rest')
      else (replacement, rest)
    | [] => (replacement, rest)
  else if 0xf0 ≤ n ∧ n ≤ 0xf4 then
    match rest with
    | b :: rest' =>
      if isSecondOfFour a b then
        match rest' with
        | c :: rest'' =>
          if isTail c then
            match rest'' with
            | d :: rest''' =>
              if isTail d then
                (Char.ofNat (((n % 8 * 64 + tailBits b) * 64 + tailBits c) * 64 + tailBits d), rest''')
              else (replacement, rest'')
            | [] => (replacement, rest'')
          else (replacement, rest')
        | [] => (replacement, rest')
      else (replacement, rest)
    | [] => (replacement, rest)
  else (replacement, rest)

theorem readChar_length_le (a : UInt8) (rest : Bytes) :
    (readChar a rest).2.length ≤ rest.length := by
  unfold readChar
  simp only
  repeat' split
  all_goals simp only [List.length_cons]; omega

def decodeChars : Bytes → List Char
  | [] => []
  | a :: rest => (readChar a rest).1 :: decodeChars (readChar a rest).2
termination_by bytes => bytes.length
decreasing_by
  have := readChar_length_le a rest
  simp only [List.length_cons]
  omega

def decodeLossy (bytes : Bytes) : String :=
  String.ofList (decodeChars bytes)

end ProbeAgent.Text
