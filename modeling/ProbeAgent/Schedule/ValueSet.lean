/-!
# Sets of small numbers

A `ValueSet low high` is a set of numbers from `low` to `high`, kept as its ascending list.  Any
list gives one: numbers outside of the bounds are dropped, and order and repeats do not matter.
-/

namespace ProbeAgent

structure ValueSet (low high : Nat) where
  values : List Nat
  ascending : values.Pairwise (· < ·)
  bounds : ∀ v ∈ values, low ≤ v ∧ v ≤ high
  deriving DecidableEq

namespace ValueSet

variable {low high : Nat}

def ofList (numbers : List Nat) : ValueSet low high where
  values := (List.range' low (high + 1 - low)).filter numbers.contains
  ascending := List.Pairwise.filter _ List.pairwise_lt_range'
  bounds := by
    intro v hv
    have := List.mem_range'_1.1 (List.mem_filter.1 hv).1
    omega

def full (low high : Nat) : ValueSet low high where
  values := List.range' low (high + 1 - low)
  ascending := List.pairwise_lt_range'
  bounds := by
    intro v hv
    have := List.mem_range'_1.1 hv
    omega

instance : Membership Nat (ValueSet low high) := ⟨fun set v => v ∈ set.values⟩

instance (v : Nat) (set : ValueSet low high) : Decidable (v ∈ set) :=
  inferInstanceAs (Decidable (v ∈ set.values))

def isEmpty (set : ValueSet low high) : Bool := set.values.isEmpty

theorem mem_def {v : Nat} {set : ValueSet low high} : v ∈ set ↔ v ∈ set.values := Iff.rfl

theorem mem_ofList {v : Nat} {numbers : List Nat} :
    v ∈ (ofList numbers : ValueSet low high) ↔ v ∈ numbers ∧ low ≤ v ∧ v ≤ high := by
  simp only [mem_def, ofList, List.mem_filter, List.mem_range'_1, List.contains_iff_mem]
  constructor <;> intro h
  · exact ⟨h.2, by omega⟩
  · exact ⟨by omega, h.1⟩

end ValueSet

end ProbeAgent
