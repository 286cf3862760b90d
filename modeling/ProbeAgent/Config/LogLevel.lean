import ProbeAgent.Text.Decimal
import ProbeAgent.Text.Folded

/-!
# Levels of log messages

A level has a name, of which the case does not matter, and a number from 1, the most severe, to 5.
-/

namespace ProbeAgent

inductive LogLevel where
  | error
  | warn
  | info
  | debug
  | trace
  deriving DecidableEq, Repr

namespace LogLevel

def all : List LogLevel := [error, warn, info, debug, trace]

def name : LogLevel → String
  | error => "error"
  | warn => "warn"
  | info => "info"
  | debug => "debug"
  | trace => "trace"

/-- The level with a number, which may have a plus in front. -/
def ofNumber? (text : List Char) : Option LogLevel :=
  let digits := if text.head? = some '+' then text.drop 1 else text
  if digits.isEmpty || !digits.all Char.isDigit then none
  else
    match Text.digitsValue digits with
    | 0 => none
    | n + 1 => all[n]?

def parse? (text : String) : Option LogLevel :=
  (ofNumber? text.toList).or (all.find? fun level => level.name = Text.folded text)

end LogLevel

end ProbeAgent
