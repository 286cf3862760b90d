/-!
# Names that ignore the case of ASCII letters

`folded` is the common form of names that are the same up to the case of the letters A to Z; other
letters keep their case.
-/

namespace ProbeAgent.Text

def foldedChar (c : Char) : Char :=
  if 'A' ≤ c ∧ c ≤ 'Z' then Char.ofNat (c.toNat + 32) else c

def folded (name : String) : String :=
  String.ofList (name.toList.map foldedChar)

end ProbeAgent.Text
