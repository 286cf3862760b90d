import Mathlib.Data.List.Forall2
import ProbeAgent.Text.Folded

/-!
# Names that are the same up to case

Two names have the same folded form iff they agree letter by letter, up to the case of the letters A
to Z (`folded_eq_folded_iff`).  The folded form of a name is that one of these names without capitals
(`eq_folded_iff`).
-/

namespace ProbeAgent.Text

/-! ## Letters -/

def IsCapital (c : Char) : Prop := 'A' ≤ c ∧ c ≤ 'Z'

instance (c : Char) : Decidable (IsCapital c) := inferInstanceAs (Decidable (_ ∧ _))

/-- The second letter is the small one of the first. -/
def HasSmall (capital small : Char) : Prop :=
  IsCapital capital ∧ small.toNat = capital.toNat + 32

/-- The letters are the same, or one is a capital from A to Z and the other its small letter. -/
def SameLetter (c d : Char) : Prop := c = d ∨ HasSmall c d ∨ HasSmall d c

instance (capital small : Char) : Decidable (HasSmall capital small) :=
  inferInstanceAs (Decidable (_ ∧ _))

instance : DecidableRel SameLetter := fun _ _ => inferInstanceAs (Decidable (_ ∨ _ ∨ _))

theorem isCapital_iff {c : Char} : IsCapital c ↔ 65 ≤ c.toNat ∧ c.toNat ≤ 90 := by
  unfold IsCapital
  rw [Char.le_def, Char.le_def, UInt32.le_iff_toNat_le, UInt32.le_iff_toNat_le]
  rfl

theorem foldedChar_of_isCapital {c : Char} (h : IsCapital c) :
    foldedChar c = Char.ofNat (c.toNat + 32) :=
  if_pos h

theorem foldedChar_of_not_isCapital {c : Char} (h : ¬ IsCapital c) : foldedChar c = c :=
  if_neg h

theorem toNat_foldedChar (c : Char) :
    (foldedChar c).toNat = if IsCapital c then c.toNat + 32 else c.toNat := by
  by_cases h : IsCapital c
  · obtain ⟨-, hle⟩ := isCapital_iff.1 h
    have hvalid : (c.toNat + 32).isValidChar := .inl (by omega)
    rw [if_pos h, foldedChar_of_isCapital h, Char.ofNat, dif_pos hvalid]
    rfl
  · rw [if_neg h, foldedChar_of_not_isCapital h]

theorem foldedChar_eq_foldedChar_iff {c d : Char} :
    foldedChar c = foldedChar d ↔ SameLetter c d := by
  unfold SameLetter HasSmall
  rw [← Char.toNat_inj, ← Char.toNat_inj, toNat_foldedChar, toNat_foldedChar]
  simp only [isCapital_iff]
  split <;> split <;> omega

theorem not_isCapital_foldedChar (c : Char) : ¬ IsCapital (foldedChar c) := by
  have hfolded := toNat_foldedChar c
  rw [isCapital_iff]
  split at hfolded
  · rename_i h
    have := isCapital_iff.1 h
    omega
  · rename_i h
    rw [isCapital_iff] at h
    omega

/-! ## Names -/

def SameName (a b : String) : Prop := List.Forall₂ SameLetter a.toList b.toList

instance : DecidableRel SameName := fun a b =>
  inferInstanceAs (Decidable (List.Forall₂ SameLetter a.toList b.toList))

def HasNoCapital (name : String) : Prop := ∀ c ∈ name.toList, ¬ IsCapital c

theorem folded_eq_folded_iff {a b : String} : folded a = folded b ↔ SameName a b := by
  unfold folded SameName
  rw [String.ofList_inj, ← List.forall₂_eq_eq_eq, List.forall₂_map_left_iff,
    List.forall₂_map_right_iff]
  simp only [foldedChar_eq_foldedChar_iff]

-- The Kelvin sign is no capital of the letter k.
example : SameName "UdpPing" "UDPPING" ∧ ¬ SameName "\u212a" "k" := by
  decide

theorem hasNoCapital_folded (name : String) : HasNoCapital (folded name) := by
  intro c hc
  rw [folded, String.toList_ofList] at hc
  obtain ⟨d, -, rfl⟩ := List.mem_map.1 hc
  exact not_isCapital_foldedChar d

theorem folded_of_hasNoCapital {name : String} (h : HasNoCapital name) : folded name = name := by
  have hsame : name.toList.map foldedChar = name.toList.map id :=
    List.map_congr_left fun c hc => foldedChar_of_not_isCapital (h c hc)
  rw [folded, hsame, List.map_id, String.ofList_toList]

theorem eq_folded_iff {key name : String} :
    key = folded name ↔ HasNoCapital key ∧ SameName name key := by
  rw [← folded_eq_folded_iff]
  constructor
  · rintro rfl
    exact ⟨hasNoCapital_folded name, (folded_of_hasNoCapital (hasNoCapital_folded name)).symm⟩
  · rintro ⟨hkey, hsame⟩
    rw [hsame, folded_of_hasNoCapital hkey]

end ProbeAgent.Text
