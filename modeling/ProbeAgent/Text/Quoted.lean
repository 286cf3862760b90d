import ProbeAgent.Text.Printable

/-!
# Quoted text in messages

`quoted` puts a text between double quotes.  A backslash stands before a quote and a backslash; tab,
line feed, carriage return and NUL have short escapes; characters that do not show, or that would
attach to the one before, are written as hexadecimal code points in braces.
-/

namespace ProbeAgent.Text

def codePointEscape (c : Char) : List Char :=
  ['\\', 'u', '\x7b'] ++ Nat.toDigits 16 c.toNat ++ ['\x7d']

def quotedChar (c : Char) : List Char :=
  if c = '"' then ['\\', '"']
  else if c = '\\' then ['\\', '\\']
  else if c = '\t' then ['\\', 't']
  else if c = '\n' then ['\\', 'n']
  else if c = '\r' then ['\\', 'r']
  else if c = '\x00' then ['\\', '0']
  else if extendsGrapheme c || !isPrintable c then codePointEscape c
  else [c]

def quoted (text : String) : String :=
  String.ofList ('"' :: text.toList.flatMap quotedChar ++ ['"'])

end ProbeAgent.Text
