import ProbeAgent.Proofs.Json.Value
import ProbeAgent.Proofs.Net.Address
import ProbeAgent.Snmp.Hosts

/-!
# What a list of addresses stands for

Whatever text is accepted, it stands for at least one and at most 65536 addresses, one after the
other.  A range stands for the addresses between its ends, a block for the addresses that share the
bits of its prefix, without the first and the last unless it has fewer than three
(`parseHosts_lists`).
-/

namespace ProbeAgent.Snmp

open Text

/-! ## Addresses between two others -/

section

variable {first last : Nat}

theorem map_bits_addressesBetween (h : last < UInt32.size) :
    (addressesBetween first last).map (fun x => x.bits.toNat) =
      List.range' first (last + 1 - first) := by
  rw [addressesBetween, List.map_map]
  refine (List.map_congr_left fun n hn => ?_).trans (List.map_id _)
  rw [List.mem_range'_1] at hn
  exact UInt32.toNat_ofNat_of_lt' (by omega)

theorem addressesBetween_ne_nil (h : first ≤ last) : addressesBetween first last ≠ [] := by
  unfold addressesBetween
  rw [ne_eq, List.map_eq_nil_iff, List.range'_eq_nil_iff]
  omega

theorem length_addressesBetween : (addressesBetween first last).length = last + 1 - first := by
  rw [addressesBetween, List.length_map, List.length_range']

/-- The list has exactly the wanted addresses, in ascending order. -/
structure ListsExactly (wanted : Ipv4 → Prop) (hosts : List Ipv4) : Prop where
  ascending : hosts.Pairwise fun x y => x.bits < y.bits
  mem_iff : ∀ x, x ∈ hosts ↔ wanted x

theorem listsExactly_addressesBetween (h : last < UInt32.size) :
    ListsExactly (fun x => first ≤ x.bits.toNat ∧ x.bits.toNat ≤ last)
      (addressesBetween first last) where
  ascending := by
    have hnumbers := List.pairwise_lt_range' (s := first) (n := last + 1 - first)
    rw [← map_bits_addressesBetween h, List.pairwise_map] at hnumbers
    exact hnumbers.imp UInt32.lt_iff_toNat_lt.2
  mem_iff x := by
    rw [addressesBetween, List.mem_map]
    constructor
    · rintro ⟨n, hn, rfl⟩
      rw [List.mem_range'_1] at hn
      rw [UInt32.toNat_ofNat_of_lt' (by omega)]
      omega
    · intro hx
      refine ⟨x.bits.toNat, List.mem_range'_1.2 (by omega), ?_⟩
      rw [UInt32.ofNat_toNat]

theorem ListsExactly.congr {wanted wanted' : Ipv4 → Prop} {hosts : List Ipv4}
    (h : ListsExactly wanted hosts) (heq : ∀ x, wanted x ↔ wanted' x) :
    ListsExactly wanted' hosts :=
  ⟨h.ascending, fun x => (h.mem_iff x).trans (heq x)⟩

end

/-! ## Blocks -/

/-- The two addresses have so many bits in common, from the left on. -/
def SharesPrefix (length : Nat) (a x : Ipv4) : Prop :=
  x.bits.toNat / 2 ^ (32 - length) = a.bits.toNat / 2 ^ (32 - length)

/-- An address that a host in the block of `a` can have: in a block of four or more, there is a
smaller and a larger one. -/
structure IsHost (length : Nat) (a x : Ipv4) : Prop where
  inBlock : SharesPrefix length a x
  inside : length ≤ 30 →
    (∃ y, SharesPrefix length a y ∧ y.bits < x.bits) ∧ ∃ z, SharesPrefix length a z ∧ x.bits < z.bits

namespace Block

variable {block : Block} {x : Ipv4}

theorem size_pos : 0 < block.size := Nat.pow_pos (by decide)

theorem first_le_last : block.first ≤ block.last := by
  have := block.size_pos
  unfold last
  omega

/-- All addresses make a whole number of blocks of one size. -/
theorem last_lt : block.last < UInt32.size := by
  have hall : 2 ^ block.length * block.size = UInt32.size := by
    show 2 ^ block.length * 2 ^ (32 - block.length) = 2 ^ 32
    rw [← Nat.pow_add, Nat.add_sub_cancel' block.length_le]
  have hlt : block.address.bits.toNat / block.size < 2 ^ block.length := by
    rw [Nat.div_lt_iff_lt_mul size_pos, hall]
    exact block.address.bits.toNat_lt
  have hend : block.first + block.size ≤ UInt32.size := by
    rw [← hall, first, ← Nat.succ_mul]
    exact Nat.mul_le_mul_right _ hlt
  have := block.size_pos
  unfold last
  omega

theorem sharesPrefix_iff :
    SharesPrefix block.length block.address x ↔
      block.first ≤ x.bits.toNat ∧ x.bits.toNat ≤ block.last := by
  have hpos := block.size_pos
  show x.bits.toNat / block.size = block.address.bits.toNat / block.size ↔ _
  rw [Nat.div_eq_iff hpos]
  unfold last first
  omega

theorem isHost_iff_of_short (h : block.length < 31) :
    IsHost block.length block.address x ↔
      block.first + 1 ≤ x.bits.toNat ∧ x.bits.toNat ≤ block.last - 1 := by
  have hfirst := block.first_le_last
  have hlast := block.last_lt
  constructor
  · rintro ⟨hshares, hinside⟩
    obtain ⟨⟨y, hy, hyx⟩, z, hz, hxz⟩ := hinside (by omega)
    rw [sharesPrefix_iff] at hy hz
    rw [UInt32.lt_iff_toNat_lt] at hyx hxz
    omega
  · intro hx
    have hends {n : Nat} (hn : block.first ≤ n ∧ n ≤ block.last) :
        SharesPrefix block.length block.address ⟨.ofNat n⟩ ∧ (UInt32.ofNat n).toNat = n := by
      have hnumber := UInt32.toNat_ofNat_of_lt' (n := n) (by omega)
      exact ⟨sharesPrefix_iff.2 (by rw [hnumber]; exact hn), hnumber⟩
    obtain ⟨hfirstIn, hfirstBits⟩ := hends ⟨Nat.le_refl _, hfirst⟩
    obtain ⟨hlastIn, hlastBits⟩ := hends ⟨hfirst, Nat.le_refl _⟩
    refine ⟨sharesPrefix_iff.2 (by omega), fun _ => ⟨⟨_, hfirstIn, ?_⟩, _, hlastIn, ?_⟩⟩
    · rw [UInt32.lt_iff_toNat_lt, hfirstBits]
      omega
    · rw [UInt32.lt_iff_toNat_lt, hlastBits]
      omega

theorem isHost_iff_of_long (h : ¬ block.length < 31) :
    IsHost block.length block.address x ↔
      block.first ≤ x.bits.toNat ∧ x.bits.toNat ≤ block.last := by
  rw [← sharesPrefix_iff]
  exact ⟨fun hx => hx.inBlock, fun hx => ⟨hx, fun hshort => absurd hshort (by omega)⟩⟩

theorem listsExactly_hosts (block : Block) :
    ListsExactly (IsHost block.length block.address) block.hosts := by
  have hlast := block.last_lt
  unfold hosts
  split
  · rename_i hshort
    exact (listsExactly_addressesBetween (by omega)).congr fun x => (isHost_iff_of_short hshort).symm
  · rename_i hlong
    exact (listsExactly_addressesBetween hlast).congr fun x => (isHost_iff_of_long hlong).symm

/-- The hosts of a block are the addresses from one number to another. -/
theorem hosts_eq (h : 16 ≤ block.length) :
    ∃ first last, first ≤ last ∧ last < UInt32.size ∧ last - first < maxHosts ∧
      block.hosts = addressesBetween first last := by
  have hlast := block.last_lt
  have hle : block.size ≤ maxHosts :=
    Nat.pow_le_pow_right (by decide) (show 32 - block.length ≤ 16 by omega)
  have hpos := block.size_pos
  have hspan : block.last + 1 = block.first + block.size := by
    unfold last
    omega
  unfold hosts
  split
  · rename_i hshort
    -- Two bits or more tell the addresses apart, so some are neither first nor last.
    have hsize : 2 ^ 2 ≤ block.size := Nat.pow_le_pow_right (by decide) (by omega)
    exact ⟨_, _, by omega, by omega, by omega, rfl⟩
  · exact ⟨_, _, by omega, by omega, by omega, rfl⟩

/-! ### Texts of blocks -/

theorem readOctet_toDigits {n : Nat} (h : n < 256) {rest : List Char} (hrest : EndsDigits rest) :
    readOctet (Nat.toDigits 10 n ++ rest) = some (n, rest) := by
  have hlength : (Nat.toDigits 10 n).length ≤ 3 :=
    (Nat.length_toDigits_le_iff (by decide) (by decide)).2 (by omega)
  rw [readOctet, spanAllDigits_run isDigit_of_mem_toDigits hrest]
  simp only [digitsValue_toDigits, List.isEmpty_iff, Nat.toDigits_ne_nil, false_or]
  rw [if_neg (by omega)]

theorem readAddress_render (a : Ipv4) {rest : List Char} (hrest : EndsDigits rest) :
    readAddress (a.render.toList ++ rest) = some (a, rest) := by
  have hpoint : ∀ text, EndsDigits ('.' :: text) := endsDigits_cons (by decide)
  rw [Ipv4.toList_render_append, readAddress]
  simp only [readOctet_toDigits (a.octet_lt _) (hpoint _), readOctet_toDigits (a.octet_lt _) hrest,
    Ipv4.readPoint, bind, Option.bind, Ipv4.ofOctets_octet]
  rfl

theorem readLength_toDigits (p : Nat) :
    readLength (Nat.toDigits 10 p) = if p ≤ 32 then some p else none := by
  have hspan := spanAllDigits_run (isDigit_of_mem_toDigits (n := p)) endsDigits_nil
  rw [List.append_nil] at hspan
  rw [readLength, hspan]
  simp only [digitsValue_toDigits, List.isEmpty_iff, Nat.toDigits_ne_nil, false_or]
  simp only [List.isEmpty_nil, Bool.not_true, Bool.false_eq_true, or_false]
  by_cases hp : p ≤ 32
  · have hlength : (Nat.toDigits 10 p).length ≤ 2 :=
      (Nat.length_toDigits_le_iff (by decide) (by decide)).2 (by omega)
    rw [if_pos hp, if_neg (by omega)]
  · rw [if_neg hp, if_pos (by omega)]

/-- A length is not read behind a blank. -/
theorem readLength_of_blank {c : Char} (h : isBlank c) (rest : List Char) :
    readLength (c :: rest) = none := by
  have hdigit := isDigit_of_isBlank h
  rw [readLength, spanAllDigits, List.takeWhile_cons_of_neg (by rw [hdigit]; decide)]
  simp

theorem parse?_render (a : Ipv4) {p : Nat} (h : p ≤ 32) :
    parse? (a.render.toList ++ '/' :: Nat.toDigits 10 p) = some ⟨a, p, h⟩ := by
  have hslash : ∀ text, EndsDigits ('/' :: text) := endsDigits_cons (by decide)
  rw [parse?, readAddress_render a (hslash _)]
  simp only [bind, Option.bind, readLength_toDigits, if_pos h, dif_pos h]

/-- A block has no blanks around the slash, and a length of at most 32. -/
theorem parse?_eq_none (a : Ipv4) {before after : List Char} {p : Nat}
    (hbefore : ∀ c ∈ before, isBlank c) (hafter : ∀ c ∈ after, isBlank c)
    (h : before ≠ [] ∨ after ≠ [] ∨ 32 < p) :
    parse? (a.render.toList ++ (before ++ '/' :: (after ++ Nat.toDigits 10 p))) = none := by
  have hslash : ∀ text, EndsDigits ('/' :: text) := endsDigits_cons (by decide)
  rw [parse?, readAddress_render a (endsDigits_append hbefore (hslash _))]
  simp only [bind, Option.bind]
  cases before with
  | cons c before =>
    have hc : c ≠ '/' := by
      rintro rfl
      exact absurd (hbefore _ List.mem_cons_self) (by decide)
    simp only [List.cons_append]
    split
    · rename_i heq
      exact absurd (List.cons.inj heq).1 hc
    · rfl
  | nil =>
    cases after with
    | cons c after => simp only [List.nil_append, List.cons_append,
        readLength_of_blank (hafter c List.mem_cons_self)]
    | nil =>
      have hp : 32 < p := by simpa using h
      simp only [List.nil_append, readLength_toDigits, if_neg (show ¬ p ≤ 32 by omega)]

end Block

/-! ## Lists -/

theorem splitAt?_append {separator : Char} {before after : List Char} (h : separator ∉ before) :
    splitAt? separator (before ++ separator :: after) = some (before, after) := by
  have hbefore : ∀ c ∈ before, decide (c ≠ separator) = true := by
    intro c hc
    simp only [decide_eq_true_eq]
    rintro rfl
    exact h hc
  rw [splitAt?, if_pos (by simp), List.takeWhile_append_of_pos hbefore,
    List.dropWhile_append_of_pos hbefore]
  simp

theorem parseAddress_render (a : Ipv4) {before after : List Char} (hbefore : ∀ c ∈ before, isBlank c)
    (hafter : ∀ c ∈ after, isBlank c) :
    parseAddress (before ++ a.render.toList ++ after) = .ok a := by
  rw [parseAddress, a.tight_render.trim_append hbefore hafter]
  simp only [Ipv4.parse?_render]
  rfl

theorem parseHosts_of_block {text : String} {characters : List Char}
    (htrim : trim text.toList = characters) (hslash : '/' ∈ characters) :
    parseHosts text = match Block.parse? characters with
      | none => .error (.invalidBlock (String.ofList characters))
      | some block =>
        if block.length < 16 then .error (.blockTooLarge (String.ofList characters))
        else .ok block.hosts := by
  have hne : characters.isEmpty = false := by
    cases characters with
    | nil => contradiction
    | cons => rfl
  rw [parseHosts, htrim]
  simp only [hne, List.contains_iff_mem.2 hslash]
  rfl

theorem parseHosts_of_range {text : String} {characters first last : List Char} {a b : Ipv4}
    (htrim : trim text.toList = characters) (hslash : '/' ∉ characters)
    (hsplit : splitAt? '-' characters = some (first, last)) (ha : parseAddress first = .ok a)
    (hb : parseAddress last = .ok b) :
    parseHosts text =
      if b.bits.toNat < a.bits.toNat then .error (.rangeReversed (String.ofList characters))
      else if maxHosts ≤ b.bits.toNat - a.bits.toNat then
        .error (.rangeTooLarge (String.ofList characters))
      else .ok (addressesBetween a.bits.toNat b.bits.toNat) := by
  have hne : characters.isEmpty = false := by
    cases characters with
    | nil => contradiction
    | cons => rfl
  have hslash' : characters.contains '/' = false := by simpa using hslash
  rw [parseHosts, htrim]
  simp only [hne, hslash', hsplit, ha, hb]
  rfl

/-- The addresses of a list are those from one number to another. -/
theorem parseHosts_eq_ok {text : String} {hosts : List Ipv4} (h : parseHosts text = .ok hosts) :
    ∃ first last, first ≤ last ∧ last < UInt32.size ∧ last - first < maxHosts ∧
      hosts = addressesBetween first last := by
  unfold parseHosts at h
  dsimp only at h
  by_cases hempty : (Text.trim text.toList).isEmpty
  · rw [if_pos hempty] at h
    cases h
  rw [if_neg hempty] at h
  split at h
  · -- A block.
    split at h
    · cases h
    · split at h
      · cases h
      · rename_i hlength
        cases h
        exact Block.hosts_eq (by omega)
  · split at h
    · -- A range.
      obtain ⟨first, -, h⟩ := exists_of_bind_eq_ok h
      obtain ⟨last, -, h⟩ := exists_of_bind_eq_ok h
      split at h
      · cases h
      · split at h
        · cases h
        · cases h
          exact ⟨_, _, by omega, last.bits.toNat_lt, by omega, rfl⟩
    · -- One address.
      obtain ⟨address, -, h⟩ := exists_of_bind_eq_ok h
      cases h
      refine ⟨address.bits.toNat, address.bits.toNat, Nat.le_refl _, address.bits.toNat_lt, ?_, ?_⟩
      · rw [Nat.sub_self]
        decide
      · simp [addressesBetween]

theorem parseHosts_ne_nil {text : String} {hosts : List Ipv4} (h : parseHosts text = .ok hosts) :
    hosts ≠ [] := by
  obtain ⟨first, last, hle, -, -, rfl⟩ := parseHosts_eq_ok h
  exact addressesBetween_ne_nil hle

/-- No address is in a list twice. -/
theorem parseHosts_nodup {text : String} {hosts : List Ipv4} (h : parseHosts text = .ok hosts) :
    hosts.Nodup := by
  obtain ⟨first, last, -, hlt, -, rfl⟩ := parseHosts_eq_ok h
  refine (listsExactly_addressesBetween hlt).ascending.imp fun {x y} hxy heq => ?_
  rw [heq] at hxy
  exact UInt32.lt_irrefl _ hxy

/-! ## Texts -/

def AllBlank (text : String) : Prop :=
  ∀ c ∈ text.toList, isBlank c

section

variable {l m n r : String}

/-- A character that is neither in an address nor blank. -/
theorem not_mem_render_append (separator : Char) (hdigit : separator.isDigit = false)
    (hpoint : separator ≠ '.') (hblank : isBlank separator = false) (a : Ipv4) (hm : AllBlank m) :
    separator ∉ a.render.toList ++ m.toList := by
  intro hmem
  rcases List.mem_append.1 hmem with h | h
  · rcases Ipv4.mem_render h with h | h
    · exact Bool.false_ne_true (hdigit.symm.trans h)
    · exact hpoint h
  · exact Bool.false_ne_true (hblank.symm.trans (hm _ h))

theorem parseHosts_range (a b : Ipv4) (hl : AllBlank l) (hm : AllBlank m) (hn : AllBlank n)
    (hr : AllBlank r) :
    parseHosts (l ++ a.render ++ m ++ "-" ++ n ++ b.render ++ r) =
      if b.bits.toNat < a.bits.toNat then
        .error (.rangeReversed (a.render ++ m ++ "-" ++ n ++ b.render))
      else if maxHosts ≤ b.bits.toNat - a.bits.toNat then
        .error (.rangeTooLarge (a.render ++ m ++ "-" ++ n ++ b.render))
      else .ok (addressesBetween a.bits.toNat b.bits.toNat) := by
  have htight := a.tight_render.join b.tight_render (m.toList ++ '-' :: n.toList)
  have htrim := htight.trim_append hl hr
  have hnil : ∀ c ∈ ([] : List Char), isBlank c := by simp
  have hfirst : parseAddress (a.render.toList ++ m.toList) = .ok a := by
    simpa using parseAddress_render a hnil hm
  have hlast : parseAddress (n.toList ++ b.render.toList) = .ok b := by
    simpa using parseAddress_render b hn hnil
  have hslash : '/' ∉ a.render.toList ++ (m.toList ++ '-' :: n.toList) ++ b.render.toList := by
    have hfront := not_mem_render_append '/' rfl (by decide) rfl a hm
    have hback := not_mem_render_append '/' rfl (by decide) rfl b hn
    simp only [List.mem_append, List.mem_cons, not_or] at hfront hback ⊢
    exact ⟨⟨hfront.1, hfront.2, by decide, hback.2⟩, hback.1⟩
  have hsplit : splitAt? '-' (a.render.toList ++ (m.toList ++ '-' :: n.toList) ++ b.render.toList) =
      some (a.render.toList ++ m.toList, n.toList ++ b.render.toList) := by
    rw [show a.render.toList ++ (m.toList ++ '-' :: n.toList) ++ b.render.toList =
      (a.render.toList ++ m.toList) ++ '-' :: (n.toList ++ b.render.toList) by simp]
    exact splitAt?_append (not_mem_render_append '-' rfl (by decide) rfl a hm)
  rw [parseHosts_of_range (by simpa using htrim) hslash hsplit hfirst hlast]
  have hwhole : String.ofList (a.render.toList ++ (m.toList ++ '-' :: n.toList) ++ b.render.toList) =
      a.render ++ m ++ "-" ++ n ++ b.render := by
    rw [← String.toList_inj]
    simp
  rw [hwhole]

theorem parseHosts_block (a : Ipv4) {p : Nat} (h : p ≤ 32) (hl : AllBlank l) (hr : AllBlank r) :
    parseHosts (l ++ a.render ++ "/" ++ toString p ++ r) =
      if p < 16 then .error (.blockTooLarge (a.render ++ "/" ++ toString p))
      else .ok (Block.hosts ⟨a, p, h⟩) := by
  have htrim := (a.tight_render.join (tight_toDigits p) ['/']).trim_append hl hr
  have hwhole : String.ofList (a.render.toList ++ '/' :: Nat.toDigits 10 p) =
      a.render ++ "/" ++ toString p := by
    rw [← String.toList_inj]
    simp
  have htext : trim (l ++ a.render ++ "/" ++ toString p ++ r).toList =
      a.render.toList ++ '/' :: Nat.toDigits 10 p := by
    simpa using htrim
  rw [parseHosts_of_block htext (by simp), Block.parse?_render a h]
  simp only [hwhole]

/-- Blanks around the slash are as bad as a length that no address has. -/
theorem parseHosts_bad_block (a : Ipv4) {p : Nat} (hl : AllBlank l) (hm : AllBlank m)
    (hn : AllBlank n) (hr : AllBlank r) (h : m ≠ "" ∨ n ≠ "" ∨ 32 < p) :
    parseHosts (l ++ a.render ++ m ++ "/" ++ n ++ toString p ++ r) =
      .error (.invalidBlock (a.render ++ m ++ "/" ++ n ++ toString p)) := by
  have htight := a.tight_render.join (tight_toDigits p) (m.toList ++ '/' :: n.toList)
  have htrim := htight.trim_append hl hr
  have hwhole : String.ofList
      (a.render.toList ++ (m.toList ++ '/' :: (n.toList ++ Nat.toDigits 10 p))) =
        a.render ++ m ++ "/" ++ n ++ toString p := by
    rw [← String.toList_inj]
    simp
  have htext : trim (l ++ a.render ++ m ++ "/" ++ n ++ toString p ++ r).toList =
      a.render.toList ++ (m.toList ++ '/' :: (n.toList ++ Nat.toDigits 10 p)) := by
    simpa using htrim
  have hbad : m.toList ≠ [] ∨ n.toList ≠ [] ∨ 32 < p := by
    simpa using h
  rw [parseHosts_of_block htext (by simp), Block.parse?_eq_none a hm hn hbad]
  simp only [hwhole]

end

/-! ## The theorem -/

/-- A text that is accepted stands for a run of addresses, of which there are at most 65536.  A range
stands for all addresses from its first to its last one, and is accepted if these are in order and not
too many.  A block stands for the addresses that its hosts can have, and is accepted if it shares 16
bits or more; only at its ends there may be blanks. -/
theorem parseHosts_lists :
    (∀ text hosts, parseHosts text = .ok hosts → hosts ≠ [] ∧ hosts.length ≤ maxHosts ∧
      ∃ first, hosts.map (fun x => x.bits.toNat) = List.range' first hosts.length) ∧
    (∀ (a b : Ipv4) (l m n r : String), AllBlank l → AllBlank m → AllBlank n → AllBlank r →
      (a.bits ≤ b.bits → b.bits.toNat - a.bits.toNat < maxHosts →
        ∃ hosts, parseHosts (l ++ a.render ++ m ++ "-" ++ n ++ b.render ++ r) = .ok hosts ∧
          ListsExactly (fun x => a.bits ≤ x.bits ∧ x.bits ≤ b.bits) hosts) ∧
      (b.bits < a.bits ∨ maxHosts ≤ b.bits.toNat - a.bits.toNat →
        ∃ e, parseHosts (l ++ a.render ++ m ++ "-" ++ n ++ b.render ++ r) = .error e)) ∧
    ∀ (a : Ipv4) (p : Nat) (l m n r : String), AllBlank l → AllBlank m → AllBlank n → AllBlank r →
      (16 ≤ p → p ≤ 32 →
        ∃ hosts, parseHosts (l ++ a.render ++ "/" ++ toString p ++ r) = .ok hosts ∧
          ListsExactly (IsHost p a) hosts) ∧
      (p < 16 ∨ 32 < p ∨ m ≠ "" ∨ n ≠ "" →
        ∃ e, parseHosts (l ++ a.render ++ m ++ "/" ++ n ++ toString p ++ r) = .error e) := by
  refine ⟨?_, ?_, ?_⟩
  · intro text hosts h
    obtain ⟨first, last, hle, hlt, hspan, rfl⟩ := parseHosts_eq_ok h
    refine ⟨addressesBetween_ne_nil hle, ?_, first, ?_⟩
    · rw [length_addressesBetween]
      omega
    · rw [map_bits_addressesBetween hlt, length_addressesBetween]
  · intro a b l m n r hl hm hn hr
    rw [parseHosts_range a b hl hm hn hr, UInt32.le_iff_toNat_le, UInt32.lt_iff_toNat_lt]
    constructor
    · intro hle hspan
      rw [if_neg (by omega), if_neg (by omega)]
      refine ⟨_, rfl, (listsExactly_addressesBetween b.bits.toNat_lt).congr fun x => ?_⟩
      rw [UInt32.le_iff_toNat_le, UInt32.le_iff_toNat_le]
    · intro hbad
      by_cases hlt : b.bits.toNat < a.bits.toNat
      · rw [if_pos hlt]
        exact ⟨_, rfl⟩
      · rw [if_neg hlt, if_pos (by omega)]
        exact ⟨_, rfl⟩
  · intro a p l m n r hl hm hn hr
    constructor
    · intro hlow hhigh
      rw [parseHosts_block a hhigh hl hr, if_neg (by omega)]
      exact ⟨_, rfl, Block.listsExactly_hosts ⟨a, p, hhigh⟩⟩
    · intro hbad
      by_cases hform : m ≠ "" ∨ n ≠ "" ∨ 32 < p
      · exact ⟨_, parseHosts_bad_block a hl hm hn hr hform⟩
      · simp only [not_or, Classical.not_not] at hform
        obtain ⟨rfl, rfl, hhigh⟩ := hform
        have hlow : p < 16 := by simpa [hhigh] using hbad
        have hblock := parseHosts_block a (p := p) (by omega) hl hr
        rw [if_pos hlow] at hblock
        exact ⟨_, by simpa using hblock⟩

theorem allBlank_space : AllBlank " " := by
  intro c hc
  rw [show " ".toList = [' '] from rfl, List.mem_singleton] at hc
  rw [hc]
  rfl

/-- A range that ends at the last address of all, and a block that is given by one of its hosts. -/
theorem parseHosts_lists_ends :
    (∃ hosts, parseHosts "255.255.255.250 - 255.255.255.255" = .ok hosts ∧
      ListsExactly (fun x => 4294967290 ≤ x.bits ∧ x.bits ≤ 4294967295) hosts) ∧
    (∃ hosts, parseHosts " 192.168.5.78/30 " = .ok hosts ∧
      ListsExactly (IsHost 30 ⟨3232236878⟩) hosts) ∧
    ∃ e, parseHosts "10.0.0.0 /24" = .error e := by
  have hnone : AllBlank "" := fun c hc => by simp at hc
  obtain ⟨-, hranges, hblocks⟩ := parseHosts_lists
  refine ⟨?_, ?_, ?_⟩
  · exact (hranges ⟨4294967290⟩ ⟨4294967295⟩ "" " " " " "" hnone allBlank_space allBlank_space
      hnone).1 (by decide) (by decide)
  · exact (hblocks ⟨3232236878⟩ 30 " " "" "" " " allBlank_space hnone hnone allBlank_space).1
      (by decide) (by decide)
  · exact (hblocks ⟨167772160⟩ 24 "" " " "" "" hnone allBlank_space hnone hnone).2
      (.inr (.inr (.inl (by decide))))

end ProbeAgent.Snmp
