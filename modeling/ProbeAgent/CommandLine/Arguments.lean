import ProbeAgent.Text.Decimal

/-!
# Reading arguments

A `Grammar` says which options and operands a command has.  An option has a long name after two
hyphens, a letter after one hyphen, or both.  Its value is the rest of the argument, after an equals
sign if the name is long, or the next argument.  Letters without values may be run together.  After
two hyphens alone there are only operands.

Each option changes the settings as it is met, so the first fault, or the first request for help,
decides.
-/

namespace ProbeAgent.CommandLine

inductive Refusal where
  -- They ask for help or for the version.
  | explained
  | misused
  deriving DecidableEq, Repr

inductive OptionEffect (σ : Type) where
  -- It has no value and is given at most once.
  | flag (set : σ → σ)
  -- It has no value and counts how often it is given.
  | tally (count : σ → σ)
  -- It has a value and is given at most once; some values are refused.
  | value (set : String → σ → Option σ)
  -- It asks for a text.
  | explain

structure OptionSpec (σ : Type) where
  long : Option String
  short : Option Char
  effect : OptionEffect σ

structure Grammar (σ : Type) where
  options : List (OptionSpec σ)
  -- What each operand does, in order.
  operands : List (String → σ → σ)

structure Progress (σ : Type) where
  settings : σ
  -- Options that must not be given again.
  given : List (Option String × Option Char)
  -- Operands that may follow.
  operands : List (String → σ → σ)

variable {σ τ : Type}

namespace OptionSpec

def takesValue (option : OptionSpec σ) : Bool :=
  match option.effect with
  | .value _ => true
  | _ => false

def apply (option : OptionSpec σ) (value : Option String) (p : Progress σ) :
    Except Refusal (Progress σ) :=
  let key := (option.long, option.short)
  let once (settings : σ) : Except Refusal (Progress σ) :=
    if p.given.contains key then throw .misused
    else return { p with settings := settings, given := key :: p.given }
  match option.effect, value with
  | .explain, none => throw .explained
  | .tally count, none => return { p with settings := count p.settings }
  | .flag set, none => once (set p.settings)
  | .value set, some text =>
    match set text p.settings with
    | some settings => once settings
    | none => throw .misused
  | _, _ => throw .misused

/-- The same option of a record that has the settings as a part. -/
def within (option : OptionSpec σ) (get : τ → σ) (put : σ → τ → τ) : OptionSpec τ where
  long := option.long
  short := option.short
  effect :=
    match option.effect with
    | .flag set => .flag fun t => put (set (get t)) t
    | .tally count => .tally fun t => put (count (get t)) t
    | .value set => .value fun text t => (put · t) <$> set text (get t)
    | .explain => .explain

end OptionSpec

/-- An argument that can be the value of the option before it: not an option itself. -/
def nextValue : List String → Except Refusal (String × List String)
  | [] => throw .misused
  | value :: rest =>
    if value.startsWith "-" && value ≠ "-" then throw .misused else return (value, rest)

def takeLetters (options : List (OptionSpec σ)) (letters : List Char) (rest : List String)
    (p : Progress σ) : Except Refusal (Progress σ × List String) :=
  match letters with
  | [] => return (p, rest)
  | letter :: more =>
    match options.find? (·.short = some letter) with
    | none => throw .misused
    | some option =>
      if option.takesValue then
        match more with
        | [] => do
          let (value, rest) ← nextValue rest
          return (← option.apply (some value) p, rest)
        | '=' :: value => do
          return (← option.apply (some (String.ofList value)) p, rest)
        | value => do
          return (← option.apply (some (String.ofList value)) p, rest)
      else
        match option.apply none p with
        | .error refusal => throw refusal
        | .ok p => takeLetters options more rest p

def takeLong (options : List (OptionSpec σ)) (text : List Char) (rest : List String)
    (p : Progress σ) : Except Refusal (Progress σ × List String) := do
  let name := String.ofList (text.takeWhile (· ≠ '='))
  let attached :=
    match text.dropWhile (· ≠ '=') with
    | _ :: value => some (String.ofList value)
    | [] => none
  match options.find? (·.long = some name) with
  | none => throw .misused
  | some option =>
    if option.takesValue && attached.isNone then
      let (value, rest) ← nextValue rest
      return (← option.apply (some value) p, rest)
    else return (← option.apply attached p, rest)

/-- Takes an argument with options, and the next one if that is a value; `none` if the argument is
an operand. -/
def takeOption (options : List (OptionSpec σ)) (argument : String) (rest : List String)
    (p : Progress σ) : Option (Except Refusal (Progress σ × List String)) :=
  match argument.toList with
  | '-' :: '-' :: text => some (takeLong options text rest p)
  | ['-'] => none
  | '-' :: letters => some (takeLetters options letters rest p)
  | _ => none

def takeOperand (operand : String) (p : Progress σ) : Except Refusal (Progress σ) :=
  match p.operands with
  | [] => throw .misused
  | set :: operands => return { p with settings := set operand p.settings, operands := operands }

namespace Grammar

def begin (grammar : Grammar σ) (settings : σ) : Progress σ := ⟨settings, [], grammar.operands⟩

def readAll (grammar : Grammar σ) (arguments : List String) (p : Progress σ) :
    Except Refusal σ := do
  match arguments with
  | [] => return p.settings
  | "--" :: operands => return (← operands.foldlM (fun p o => takeOperand o p) p).settings
  | argument :: rest =>
    match takeOption grammar.options argument rest p with
    | none => grammar.readAll rest (← takeOperand argument p)
    | some taken =>
      let (p, left) ← taken
      if left.length ≤ rest.length then grammar.readAll left p else throw .misused
termination_by arguments.length
decreasing_by all_goals (simp_wf; try omega)

/-- Reads options up to the first argument that is none: the settings, that argument and those after
it. -/
def readOptions (grammar : Grammar σ) (arguments : List String) (p : Progress σ) :
    Except Refusal (σ × String × List String) := do
  match arguments with
  | [] => throw .misused
  | "--" :: _ => throw .misused
  | argument :: rest =>
    match takeOption grammar.options argument rest p with
    | none => return (p.settings, argument, rest)
    | some taken =>
      let (p, left) ← taken
      if left.length ≤ rest.length then grammar.readOptions left p else throw .misused
termination_by arguments.length

end Grammar

/-! ## Values -/

/-- A number of at least one digit, up to a limit. -/
def digits? (limit : Nat) (digits : List Char) : Option Nat :=
  let n := Text.digitsValue digits
  if !digits.isEmpty && digits.all Char.isDigit && n ≤ limit then some n else none

def unsigned? (limit : Nat) (text : String) : Option Nat :=
  match text.toList with
  | '+' :: digits => digits? limit digits
  | digits => digits? limit digits

/-- A number that may have a sign in front and is not negative. -/
def signed? (limit : Nat) (text : String) : Option Nat :=
  match text.toList with
  | '-' :: digits => digits? 0 digits
  | _ => unsigned? limit text

def path? (text : String) : Option String := if text.isEmpty then none else some text

end ProbeAgent.CommandLine
