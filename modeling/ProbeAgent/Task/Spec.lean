import ProbeAgent.Schedule.Timing

/-!
# Tasks as their source describes them

A task has an identity, a method with options, and a timing.  A list of tasks is a JSON array.
-/

namespace ProbeAgent

/-- The identity of a task, which outlives its runs. -/
structure TaskId where
  value : UInt64
  deriving DecidableEq

namespace TaskId

def ofNat (n : Nat) : TaskId := ⟨.ofNat n⟩

def render (id : TaskId) : String := toString id.value.toNat

def toJson (id : TaskId) : Json := .int id.value.toNat

def ofDoc (d : Doc) : Decoded TaskId := TaskId.mk <$> Doc.uint64 d

end TaskId

structure TaskSpec where
  id : TaskId
  method : String
  options : Json
  timing : Timing

namespace TaskSpec

/-- The host or URL that the options name; a host that is no string hides the URL. -/
def target (spec : TaskSpec) : Option String :=
  ((spec.options.get? "host").or (spec.options.get? "url")).bind Json.str?

def rules (source : DocSource) : List Doc.FieldRule := [
  .of "task_id" .refused TaskId.ofDoc,
  .of "method" .refused Doc.text,
  .of "options" .allowed Doc.jsonValue,
  .of "timing" .refused (Timing.ofDoc source)]

/-- Options that are left out are empty. -/
def ofDoc (source : DocSource) (d : Doc) : Decoded TaskSpec := do
  let fields ← d.record source "TaskSpec" (rules source)
  return {
    id := ← fields.require "task_id" TaskId.ofDoc
    method := ← fields.require "method" Doc.text
    options := ← fields.get "options" (.obj []) Doc.jsonValue
    timing := ← fields.require "timing" (Timing.ofDoc source) }

def toJson (spec : TaskSpec) : Json := .obj [
  ("task_id", spec.id.toJson),
  ("method", .str spec.method),
  ("options", spec.options),
  ("timing", spec.timing.toJson)]

def parseList (text : String) : Decoded (List TaskSpec) :=
  decodeText (Doc.list (ofDoc .text)) text

end TaskSpec

end ProbeAgent
