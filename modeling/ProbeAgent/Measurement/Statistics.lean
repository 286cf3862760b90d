import ProbeAgent.Json.Decode

/-!
# Statistics of round-trip times

Samples are in microseconds.  Mean and standard deviation are of the whole population; their sums
run in the order of the samples.  Without samples everything is zero.
-/

namespace ProbeAgent

structure RttStatistics where
  min : UInt64
  max : UInt64
  average : Float
  deviation : Float
  count : UInt64

namespace RttStatistics

def zero : RttStatistics := ⟨0, 0, 0.0, 0.0, 0⟩

def sum (terms : List Float) : Float := terms.foldl (· + ·) 0.0

def mean (samples : List UInt64) : Float :=
  sum (samples.map fun s => Float.ofNat s.toNat) / Float.ofNat samples.length

def variance (samples : List UInt64) (centre : Float) : Float :=
  let squares := samples.map fun s =>
    let d := Float.ofNat s.toNat - centre
    d * d
  sum squares / Float.ofNat samples.length

def ofSamples : List UInt64 → RttStatistics
  | [] => zero
  | first :: rest =>
    let samples := first :: rest
    let average := mean samples
    { min := rest.foldl (fun a b => if b < a then b else a) first
      max := rest.foldl (fun a b => if a < b then b else a) first
      average := average
      deviation := (variance samples average).sqrt
      count := .ofNat samples.length }

def toJson (s : RttStatistics) : Json := .obj [
  ("min", .int s.min.toNat),
  ("max", .int s.max.toNat),
  ("avg", .ofFloat s.average),
  ("stdev", .ofFloat s.deviation),
  ("count", .int s.count.toNat)]

def rules : List Doc.FieldRule := [
  .of "min" .refused Doc.uint64,
  .of "max" .refused Doc.uint64,
  .of "avg" .refused Doc.double,
  .of "stdev" .refused Doc.double,
  .of "count" .refused Doc.count]

def ofDoc (d : Doc) : Decoded RttStatistics := do
  let fields ← d.record .value "RttStatistics" rules
  return {
    min := ← fields.require "min" Doc.uint64
    max := ← fields.require "max" Doc.uint64
    average := ← fields.require "avg" Doc.double
    deviation := ← fields.require "stdev" Doc.double
    count := ← fields.require "count" Doc.count }

end RttStatistics

end ProbeAgent
