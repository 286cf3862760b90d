import ProbeAgent.Net.Address
import ProbeAgent.Proofs.Text.Decimal

/-!
# Reading addresses that were written

Every address is read back from its text (`parse?_render`), and as the kind of address that it is:
the text of an IPv6 address is never one of an IPv4 address, since a colon follows the digits that it
starts with.  A double colon is read back as the zeros that it stands for.
-/

namespace ProbeAgent

open Text

/-! ## IPv4 -/

namespace Ipv4

theorem ofOctets_octet (a : Ipv4) :
    ofOctets (a.octet 0) (a.octet 1) (a.octet 2) (a.octet 3) = a := by
  have hlt : a.bits.toNat < 4294967296 := a.bits.toNat_lt
  have hbits : ((a.octet 0 * 256 + a.octet 1) * 256 + a.octet 2) * 256 + a.octet 3 =
      a.bits.toNat := by
    simp only [octet, Nat.pow_eq, Nat.reduceSub, Nat.reducePow]
    omega
  rw [ofOctets, hbits, UInt32.ofNat_toNat]

theorem octet_lt (a : Ipv4) (index : Nat) : a.octet index < 256 := Nat.mod_lt _ (by decide)

theorem readOctet_toDigits {n : Nat} (h : n < 256) {rest : List Char} (hrest : EndsDigits rest) :
    readOctet (Nat.toDigits 10 n ++ rest) = some (n, rest) := by
  have hlength : (Nat.toDigits 10 n).length ≤ 3 :=
    (Nat.length_toDigits_le_iff (by decide) (by decide)).2 (by omega)
  have hzero : ¬ (1 < (Nat.toDigits 10 n).length ∧ (Nat.toDigits 10 n).head? = some '0') := by
    rintro ⟨hlong, hhead⟩
    exact head?_toDigits_ne_zero (pos_of_length_toDigits hlong) hhead
  rw [readOctet, spanAllDigits_run isDigit_of_mem_toDigits hrest]
  simp only [digitsValue_toDigits, List.isEmpty_iff, Nat.toDigits_ne_nil, false_or]
  rw [if_neg (by omega), if_neg hzero]

theorem toList_render_append (a : Ipv4) (rest : List Char) :
    a.render.toList ++ rest = Nat.toDigits 10 (a.octet 0) ++ '.' ::
      (Nat.toDigits 10 (a.octet 1) ++ '.' :: (Nat.toDigits 10 (a.octet 2) ++ '.' ::
        (Nat.toDigits 10 (a.octet 3) ++ rest))) := by
  simp [render, List.range_succ]

theorem mem_render {a : Ipv4} {c : Char} (h : c ∈ a.render.toList) : c.isDigit = true ∨ c = '.' := by
  have htext := toList_render_append a []
  rw [List.append_nil] at htext
  rw [htext] at h
  simp only [List.append_nil, List.mem_append, List.mem_cons] at h
  rcases h with h | rfl | h | rfl | h | rfl | h
  all_goals first | exact .inr rfl | exact .inl (isDigit_of_mem_toDigits c h)

theorem tight_render (a : Ipv4) : Tight a.render.toList := by
  have htext := toList_render_append a []
  rw [List.append_nil, List.append_nil] at htext
  have hjoin := (tight_toDigits (a.octet 0)).join (tight_toDigits (a.octet 3)) ('.' ::
    (Nat.toDigits 10 (a.octet 1) ++ '.' :: (Nat.toDigits 10 (a.octet 2) ++ ['.'])))
  rw [htext]
  simpa using hjoin

theorem read_render (a : Ipv4) {rest : List Char} (hrest : EndsDigits rest) :
    read (a.render.toList ++ rest) = some (a, rest) := by
  have hpoint : ∀ text, EndsDigits ('.' :: text) := endsDigits_cons (by decide)
  rw [toList_render_append, read]
  simp only [readOctet_toDigits (a.octet_lt _) (hpoint _), readOctet_toDigits (a.octet_lt _) hrest,
    readPoint, bind, Option.bind, ofOctets_octet]
  rfl

theorem parse?_render (a : Ipv4) : parse? a.render.toList = some a := by
  have hread := read_render a endsDigits_nil
  rw [List.append_nil] at hread
  rw [parse?, hread]
  rfl

/-- No point follows the digits in front of the text. -/
theorem read_eq_none {text : List Char} (h : (text.dropWhile Char.isDigit).head? ≠ some '.') :
    read text = none := by
  have hpoint : readPoint (text.dropWhile Char.isDigit) = none := by
    unfold readPoint
    split
    · rename_i heq
      rw [heq] at h
      exact absurd rfl h
    · rfl
  rw [read]
  cases hoctet : readOctet text with
  | none => rfl
  | some found =>
    have hrest : found.2 = text.dropWhile Char.isDigit := by
      simp only [readOctet, Option.ite_none_left_eq_some] at hoctet
      obtain ⟨-, -, hfound⟩ := hoctet
      cases hfound
      rfl
    simp only [bind, Option.bind, hrest, hpoint]

end Ipv4

/-! ## Groups of an IPv6 address -/

namespace Ipv6

/-- What follows a group: the colon before the next one, or nothing. -/
def EndsGroup (rest : List Char) : Prop :=
  ∀ c ∈ rest.head?, c = ':'

/-- What follows the last of the groups: a double colon, or nothing. -/
def EndsGroups (rest : List Char) : Prop :=
  rest = [] ∨ ∃ more, rest = ':' :: ':' :: more

theorem endsGroup_cons (rest : List Char) : EndsGroup (':' :: rest) := by
  intro c hc
  cases hc
  rfl

theorem EndsGroups.endsGroup {rest : List Char} (h : EndsGroups rest) : EndsGroup rest := by
  rcases h with rfl | ⟨more, rfl⟩
  · intro c hc
    cases hc
  · exact endsGroup_cons _

def groupDigits (group : UInt16) : List Char := Nat.toDigits 16 group.toNat

/-- Groups with colons between them, and one in front if they are not the first ones. -/
def groupsText : (first : Bool) → List UInt16 → List Char
  | _, [] => []
  | first, group :: groups =>
    (if first then [] else [':']) ++ groupDigits group ++ groupsText false groups

theorem toList_renderGroups (groups : List UInt16) :
    (renderGroups groups).toList = groupsText true groups := by
  have hrest : ∀ group, ∀ groups : List UInt16,
      [':'].intercalate ((group :: groups).map groupDigits) =
        groupDigits group ++ groupsText false groups := by
    intro group groups
    induction groups generalizing group with
    | nil => simp [groupsText]
    | cons next groups ih =>
      rw [List.map_cons, List.map_cons, List.intercalate_cons_cons, ← List.map_cons, ih]
      simp [groupsText]
  have hlist : (renderGroups groups).toList = [':'].intercalate (groups.map groupDigits) := by
    simp only [renderGroups, String.toList_intercalate, List.map_map, Function.comp_def,
      String.toList_ofList]
    rfl
  rw [hlist]
  cases groups with
  | nil => rfl
  | cons group groups =>
    rw [hrest]
    rfl

theorem hexDigit?_digitChar : ∀ d < 16, hexDigit? d.digitChar = some d := by decide

theorem exists_of_mem_toDigits {n : Nat} :
    ∀ c ∈ Nat.toDigits 16 n, ∃ d, d < 16 ∧ c = d.digitChar := by
  induction n using Nat.strongRecOn with
  | _ n ih =>
    intro c hc
    rcases Nat.lt_or_ge n 16 with hlt | hge
    · rw [Nat.toDigits_of_lt_base hlt, List.mem_singleton] at hc
      exact ⟨n, hlt, hc⟩
    · rw [Nat.toDigits_of_base_le (by decide) hge, List.mem_append, List.mem_singleton] at hc
      rcases hc with hleading | hlast
      · exact ih (n / 16) (by omega) c hleading
      · exact ⟨n % 16, Nat.mod_lt _ (by decide), hlast⟩

theorem isSome_hexDigit?_of_mem {n : Nat} :
    ∀ c ∈ Nat.toDigits 16 n, (hexDigit? c).isSome = true := by
  intro c hc
  obtain ⟨d, hd, rfl⟩ := exists_of_mem_toDigits c hc
  rw [hexDigit?_digitChar d hd]
  rfl

theorem foldl_hexDigit?_toDigits (n : Nat) :
    (Nat.toDigits 16 n).foldl (fun n c => 16 * n + (hexDigit? c).getD 0) 0 = n := by
  induction n using Nat.strongRecOn with
  | _ n ih =>
    rcases Nat.lt_or_ge n 16 with hlt | hge
    · rw [Nat.toDigits_of_lt_base hlt]
      simp [hexDigit?_digitChar n hlt]
    · have hlast := hexDigit?_digitChar (n % 16) (Nat.mod_lt _ (by decide))
      rw [Nat.toDigits_of_base_le (by decide) hge, List.foldl_append, ih (n / 16) (by omega)]
      simp only [List.foldl_cons, List.foldl_nil, hlast, Option.getD_some]
      omega

theorem readGroup_groupDigits (group : UInt16) {rest : List Char} (hrest : EndsGroup rest) :
    readGroup (groupDigits group ++ rest) = some (group, rest) := by
  have htake : (groupDigits group ++ rest).takeWhile (fun c => (hexDigit? c).isSome) =
      groupDigits group := by
    rw [groupDigits, List.takeWhile_append_of_pos isSome_hexDigit?_of_mem]
    cases rest with
    | nil => exact List.append_nil _
    | cons c rest =>
      cases hrest c rfl
      rw [List.takeWhile_cons_of_neg (by decide), List.append_nil]
  have hlength : (groupDigits group).length ≤ 4 :=
    (Nat.length_toDigits_le_iff (by decide) (by decide)).2 group.toNat_lt
  have hvalue : (groupDigits group).foldl (fun n c => 16 * n + (hexDigit? c).getD 0) 0 =
      group.toNat := foldl_hexDigit?_toDigits _
  have hne : groupDigits group ≠ [] := Nat.toDigits_ne_nil
  rw [readGroup, htake]
  simp only [List.isEmpty_iff, hne, false_or, Nat.not_lt.2 hlength, if_false, hvalue,
    List.drop_left, UInt16.ofNat_toNat]

/-- No IPv4 address starts with a group. -/
theorem read_groupDigits_eq_none (group : UInt16) {rest : List Char} (hrest : EndsGroup rest) :
    Ipv4.read (groupDigits group ++ rest) = none := by
  apply Ipv4.read_eq_none
  rw [List.dropWhile_append]
  split
  -- All digits of the group are decimal, so what follows them is looked at.
  · cases rest with
    | nil => simp
    | cons c rest =>
      cases hrest c rfl
      simp [List.dropWhile_cons_of_neg]
  · rename_i hne
    obtain ⟨c, digits, hcons⟩ := List.exists_cons_of_ne_nil (mt List.isEmpty_iff.2 hne)
    have hmem : c ∈ groupDigits group := by
      refine (List.dropWhile_sublist Char.isDigit).mem ?_
      rw [hcons]
      exact List.mem_cons_self
    obtain ⟨d, hd, rfl⟩ := exists_of_mem_toDigits c hmem
    rw [hcons, List.cons_append, List.head?_cons, ne_eq, Option.some.injEq]
    exact Nat.digitChar_ne '.' (by decide)

theorem read_cons_colon_eq_none (rest : List Char) : Ipv4.read (':' :: rest) = none := by
  apply Ipv4.read_eq_none
  simp [List.dropWhile_cons_of_neg]

/-! ## Lists of groups -/

/-- Groups end where no group follows. -/
theorem readGroups_of_endsGroups (limit : Nat) (first : Bool) {rest : List Char}
    (h : EndsGroups rest) : readGroups limit first rest = ([], false, rest) := by
  cases limit with
  | zero => rfl
  | succ limit =>
    have hcolon : ∀ text, readColon first rest = some text →
        Ipv4.read text = none ∧ readGroup text = none := by
      intro text htext
      rcases h with rfl | ⟨more, rfl⟩
      · cases first <;> cases htext
        exact ⟨rfl, rfl⟩
      · cases first <;> cases htext
        · exact ⟨read_cons_colon_eq_none _, rfl⟩
        · exact ⟨read_cons_colon_eq_none _, rfl⟩
    have hembedded : (readColon first rest).bind Ipv4.read = none := by
      cases htext : readColon first rest with
      | none => rfl
      | some text => exact (hcolon text htext).1
    have hgroup : (readColon first rest).bind readGroup = none := by
      cases htext : readColon first rest with
      | none => rfl
      | some text => exact (hcolon text htext).2
    simp only [readGroups, hembedded, hgroup, ite_self]

/-- One more group in front. -/
theorem readGroups_cons (limit : Nat) (first : Bool) (group : UInt16) {rest : List Char}
    (hrest : EndsGroup rest) :
    readGroups (limit + 1) first ((if first then [] else [':']) ++ groupDigits group ++ rest) =
      (group :: (readGroups limit false rest).1, (readGroups limit false rest).2) := by
  have hcolon : readColon first ((if first then [] else [':']) ++ groupDigits group ++ rest) =
      some (groupDigits group ++ rest) := by
    cases first <;> rfl
  simp only [readGroups, hcolon, Option.bind, read_groupDigits_eq_none group hrest, ite_self,
    readGroup_groupDigits group hrest]

theorem endsGroup_groupsText (groups : List UInt16) {rest : List Char} (hrest : EndsGroup rest) :
    EndsGroup (groupsText false groups ++ rest) := by
  cases groups with
  | nil => exact hrest
  | cons group groups => exact endsGroup_cons _

theorem readGroups_groupsText {limit : Nat} (first : Bool) {groups : List UInt16}
    (hlimit : groups.length ≤ limit) {rest : List Char} (hrest : EndsGroups rest) :
    readGroups limit first (groupsText first groups ++ rest) = (groups, false, rest) := by
  induction groups generalizing limit first with
  | nil => exact readGroups_of_endsGroups limit first hrest
  | cons group groups ih =>
    obtain ⟨limit, rfl⟩ : ∃ l, limit = l + 1 := ⟨limit - 1, by simp at hlimit; omega⟩
    have hends := endsGroup_groupsText groups hrest.endsGroup
    rw [groupsText, List.append_assoc, readGroups_cons limit first group hends,
      ih false (Nat.le_of_succ_le_succ hlimit)]

/-! ## Whole addresses -/

theorem ofGroups?_groups (a : Ipv6) : ofGroups? a.groups = some a := by
  rw [ofGroups?, dif_pos a.length_eq]

/-- The zeros that are left out are zeros of the address. -/
theorem longestZeros_le (groups : List UInt16) :
    (longestZeros groups).2 = 0 ∨ (longestZeros groups).2 =
      ((groups.drop (longestZeros groups).1).takeWhile (· = 0)).length := by
  let IsRun : Nat × Nat → Prop := fun run =>
    run.2 = 0 ∨ run.2 = ((groups.drop run.1).takeWhile (· = 0)).length
  -- The best run so far is one of those looked at, or the empty one.
  refine List.foldlRecOn (motive := IsRun) _ _ (.inl rfl) ?_
  intro best hbest run hrun
  obtain ⟨i, -, rfl⟩ := List.mem_map.1 hrun
  show IsRun (if _ then _ else _)
  split
  · exact .inr rfl
  · exact hbest

theorem groups_eq_of_longestZeros {groups : List UInt16} {start length : Nat}
    (h : longestZeros groups = (start, length)) (hlength : 2 ≤ length) :
    groups = groups.take start ++ List.replicate length 0 ++ groups.drop (start + length) := by
  have hrun : length = ((groups.drop start).takeWhile (· = 0)).length := by
    have hle := longestZeros_le groups
    rw [h] at hle
    exact hle.resolve_left (by simp only; omega)
  have hzeros : (groups.drop start).take length = List.replicate length 0 := by
    have hprefix := List.prefix_iff_eq_take.1
      (List.takeWhile_prefix (l := groups.drop start) (· = (0 : UInt16)))
    rw [← hrun] at hprefix
    rw [← hprefix]
    refine List.eq_replicate_iff.2 ⟨hrun.symm, fun group hgroup => ?_⟩
    exact of_decide_eq_true (List.all_eq_true.1 List.all_takeWhile group hgroup)
  rw [← hzeros, List.append_assoc, ← List.drop_drop, List.take_append_drop, List.take_append_drop]

theorem read_groupsText {a : Ipv6} : read (groupsText true a.groups) = some (a, []) := by
  have hread := readGroups_groupsText true (Nat.le_of_eq a.length_eq) (.inl rfl : EndsGroups [])
  rw [List.append_nil] at hread
  rw [read, hread]
  simp only [a.length_eq, if_true, ofGroups?_groups]
  rfl

theorem read_compressed {a : Ipv6} {head tail : List UInt16} {zeros : Nat} (hzeros : 2 ≤ zeros)
    (h : a.groups = head ++ List.replicate zeros 0 ++ tail) :
    read (groupsText true head ++ ':' :: ':' :: groupsText true tail) = some (a, []) := by
  have hlength : head.length + zeros + tail.length = 8 := by
    have hall := a.length_eq
    rw [h] at hall
    simpa [Nat.add_assoc] using hall
  have hhead := readGroups_groupsText true (show head.length ≤ 8 by omega)
    (.inr ⟨groupsText true tail, rfl⟩)
  have htail := readGroups_groupsText true (show tail.length ≤ 7 - head.length by omega)
    (.inl rfl : EndsGroups [])
  rw [List.append_nil] at htail
  have hcount : 8 - head.length - tail.length = zeros := by omega
  rw [read, hhead]
  simp only [htail, hcount, ← h, ofGroups?_groups]
  rw [if_neg (by omega), if_neg (by decide)]
  rfl

/-- An IPv4 address is read in place of the last two groups. -/
theorem readGroups_render {limit : Nat} (hlimit : limit ≠ 0) (address : Ipv4) :
    readGroups (limit + 1) false (':' :: address.render.toList) =
      ([.ofNat (address.bits.toNat / 65536), .ofNat (address.bits.toNat % 65536)], true, []) := by
  have hread := Ipv4.read_render address endsDigits_nil
  rw [List.append_nil] at hread
  have hcolon : readColon false (':' :: address.render.toList) = some address.render.toList := rfl
  simp only [readGroups, hcolon, Option.bind, hread, if_neg hlimit]

theorem read_mapped {a : Ipv6} {high low : UInt16}
    (h : a.groups = [0, 0, 0, 0, 0, 0xffff, high, low]) :
    read (':' :: ':' :: (groupDigits 0xffff ++ ':' ::
      (Ipv4.render ⟨.ofNat (high.toNat * 65536 + low.toNat)⟩).toList)) = some (a, []) := by
  have hhigh : high.toNat < 65536 := high.toNat_lt
  have hlow : low.toNat < 65536 := low.toNat_lt
  have hbits : (UInt32.ofNat (high.toNat * 65536 + low.toNat)).toNat =
      high.toNat * 65536 + low.toNat := UInt32.toNat_ofNat_of_lt' (by simp [UInt32.size]; omega)
  have hlast := readGroups_render (show 5 ≠ 0 by decide) ⟨.ofNat (high.toNat * 65536 + low.toNat)⟩
  have htail := readGroups_cons 6 true 0xffff (endsGroup_cons
    (Ipv4.render ⟨.ofNat (high.toNat * 65536 + low.toNat)⟩).toList)
  rw [hlast, hbits, show (high.toNat * 65536 + low.toNat) / 65536 = high.toNat by omega,
    show (high.toNat * 65536 + low.toNat) % 65536 = low.toNat by omega, UInt16.ofNat_toNat,
    UInt16.ofNat_toNat] at htail
  rw [read, readGroups_of_endsGroups 8 true (.inr ⟨_, rfl⟩)]
  have hall := ofGroups?_groups a
  rw [h] at hall
  simp only [List.length_nil, Nat.sub_zero]
  rw [if_neg (by decide), if_neg (by decide)]
  simp only [if_true, List.nil_append] at htail
  simp only [htail]
  exact congrArg (Option.map (·, [])) hall

theorem read_render (a : Ipv6) : read a.render.toList = some (a, []) := by
  unfold render
  split
  · rename_i high low hgroups
    rw [String.toList_append]
    exact read_mapped hgroups
  · cases hzeros : longestZeros a.groups with
    | mk start length =>
      simp only
      split
      · rw [toList_renderGroups]
        exact read_groupsText
      · rename_i hlength
        have hlength : 2 ≤ length := by omega
        rw [String.toList_append, String.toList_append, toList_renderGroups, toList_renderGroups]
        rw [show "::".toList = [':', ':'] from rfl, List.append_assoc]
        exact read_compressed hlength (groups_eq_of_longestZeros hzeros hlength)

theorem parse?_render (a : Ipv6) : parse? a.render.toList = some a := by
  rw [parse?, read_render]
  rfl

theorem read_groupsText_eq_none {groups : List UInt16} {rest : List Char} (hgroups : groups ≠ [])
    (hrest : EndsGroup rest) : Ipv4.read (groupsText true groups ++ rest) = none := by
  obtain ⟨group, groups, rfl⟩ := List.exists_cons_of_ne_nil hgroups
  rw [groupsText, List.append_assoc]
  exact read_groupDigits_eq_none group (endsGroup_groupsText groups hrest)

/-- No IPv4 address starts with the text of an IPv6 address. -/
theorem read_render_eq_none (a : Ipv6) : Ipv4.read a.render.toList = none := by
  unfold render
  split
  · rw [String.toList_append]
    exact read_cons_colon_eq_none _
  · cases hzeros : longestZeros a.groups with
    | mk start length =>
      simp only
      split
      · have hne : a.groups ≠ [] := by
          intro hnil
          have hlength := a.length_eq
          rw [hnil] at hlength
          cases hlength
        have hnone := read_groupsText_eq_none hne (EndsGroups.endsGroup (.inl rfl))
        rwa [List.append_nil, ← toList_renderGroups] at hnone
      · rw [String.toList_append, String.toList_append, toList_renderGroups, toList_renderGroups]
        rw [show "::".toList = [':', ':'] from rfl, List.append_assoc]
        by_cases hhead : a.groups.take start = []
        · rw [hhead]
          exact read_cons_colon_eq_none _
        · exact read_groupsText_eq_none hhead (endsGroup_cons _)

end Ipv6

namespace IpAddress

theorem parse?_of_v4 {text : String} {a : Ipv4} (h : Ipv4.parse? text.toList = some a) :
    parse? text = some (.v4 a) := by
  simp only [parse?, h]

theorem parse?_of_v6 {text : String} {a : Ipv6} (hnone : Ipv4.parse? text.toList = none)
    (h : Ipv6.parse? text.toList = some a) : parse? text = some (.v6 a) := by
  simp only [parse?, hnone, h, Option.map_some]

theorem parse?_render (a : IpAddress) : parse? a.render = some a := by
  cases a with
  | v4 a => exact parse?_of_v4 a.parse?_render
  | v6 a =>
    have hnone : Ipv4.parse? a.render.toList = none := by
      rw [Ipv4.parse?, a.read_render_eq_none]
      rfl
    exact parse?_of_v6 hnone a.parse?_render

end IpAddress

end ProbeAgent
