import ProbeAgent.Measurement.Basic
import ProbeAgent.Text.Folded
import ProbeAgent.Text.Quoted

/-!
# Registries of methods

A registry says, for the name of a method, how its options are read and what measures it.  Names are
compared without regard to ASCII case, and the last registration of a name counts.
-/

namespace ProbeAgent

/-- How the options of a method are read, and what measures it.  A new measurement is one of the three
built-in ones; it stands for a constructor that is given the environment, which a measurement meets
here only in the sessions of its runs. -/
structure Registration where
  parse : Json → Decoded Definition
  fresh : Measurement

def Registration.ofMethod (method : Method) : Registration :=
  ⟨Definition.ofOptions method, .unprepared method⟩

/-- Registrations by name in lower case, in the order of the names. -/
structure MethodRegistry where
  entries : List (String × Registration)

namespace MethodRegistry

def empty : MethodRegistry := ⟨[]⟩

/-- Puts an entry in its place; it takes the place of one with the same key. -/
def insertEntry (key : String) (registration : Registration) :
    List (String × Registration) → List (String × Registration)
  | [] => [(key, registration)]
  | (other, r) :: rest =>
    if key = other then (key, registration) :: rest
    else if key < other then (key, registration) :: (other, r) :: rest
    else (other, r) :: insertEntry key registration rest

def register (registry : MethodRegistry) (name : String) (registration : Registration) :
    MethodRegistry :=
  ⟨insertEntry (Text.folded name) registration registry.entries⟩

def builtIn : MethodRegistry :=
  [Method.udpPing, .traceroute, .snmp].foldl
    (fun registry method => registry.register method.name (.ofMethod method)) empty

def find? (registry : MethodRegistry) (name : String) : Option Registration :=
  registry.entries.lookup (Text.folded name)

def contains (registry : MethodRegistry) (name : String) : Bool :=
  (registry.find? name).isSome

def names (registry : MethodRegistry) : List String :=
  registry.entries.map (·.1)

def definition (registry : MethodRegistry) (name : String) (options : Json) :
    Except DefinitionError Definition :=
  match registry.find? name with
  | none => throw (.unknownMethod name)
  | some registration =>
    match registration.parse options with
    | .ok d => return d
    | .error e => throw (.invalidOptions (Text.folded name) e)

def measurement (registry : MethodRegistry) (name : String) : Except DefinitionError Measurement :=
  match registry.find? name with
  | none => throw (.unknownMethod name)
  | some registration => return registration.fresh

def describe (registry : MethodRegistry) : String :=
  "\x7b" ++ ", ".intercalate (registry.names.map Text.quoted) ++ "\x7d"

end MethodRegistry

end ProbeAgent
