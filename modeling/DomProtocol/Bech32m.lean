import DomProtocol.Lib.Bits
import DomProtocol.Core

/-! # Bech32m text (`dom-core/address`)

The encoding behind an address: a human-readable part, the separator `1`, the data in groups of five
bits, each written as one character of **`charset`**, and six checksum characters (**`polymod`**).
For data whose length is a multiple of five octets, `bech32mDecode` is the exact inverse of
`bech32mEncode`: **`bech32mDecode_eq_ok`**. -/

namespace DomProtocol

variable {values front last : List Nat} {checksum v : Nat} {input : List Nat} {data : Bytes}
  {c : Char} {chars : List Char} {hrp : String}

/-- Bech32m constant (BIP-350). -/
def bech32mConst : Nat := 0x2bc830a3

/-- Bech32 charset. -/
def charset : List Char := "qpzry9x8gf2tvdw0s3jn54khce6mua7l".toList

/-- Reverse lookup: ASCII code to 5-bit value. -/
def charsetRev (octet : UInt8) : Option Nat :=
  charset.findIdx? fun c => UInt8.ofNat c.toNat == octet

/-! ## Checksum -/

/-- The generators of the checksum. -/
def polymodGen : List Nat := [0x3b6a57b2, 0x26508e6d, 0x1ea119fa, 0x3d4233dd, 0x2a1462b3]

/-- One iteration of `polymod`. -/
def polymodStep (chk v : Nat) : Nat :=
  let b := (chk >>> 25) &&& 0xFF
  polymodGen.zipIdx.foldl (fun chk gi => if (b >>> gi.2) &&& 1 = 1 then chk ^^^ gi.1 else chk)
    (((chk &&& 0x01ffffff) <<< 5) % 2 ^ 32 ^^^ v)

/-- The Bech32m checksum polymod. -/
def polymod (values : List Nat) : Nat := values.foldl polymodStep 1

/-- The expansion of the human-readable part for the checksum. -/
def hrpExpand (hrp : String) : List Nat :=
  (utf8 hrp).map (fun c => c.toNat >>> 5) ++ 0 :: (utf8 hrp).map (fun c => c.toNat &&& 31)

/-! ## Groups of five bits -/

/-- The accumulator of the two conversions: the groups produced, and the bits still in hand. -/
structure BitBuffer (α : Type) where
  out : List α
  acc : Nat
  bits : Nat

/-- Emit groups of five bits as long as there are five bits in hand. -/
def emitGroups (acc : Nat) : Nat → List Nat → List Nat × Nat
  | bits + 5, out => emitGroups acc bits (out ++ [(acc >>> bits) &&& 31])
  | bits, out => (out, bits)

/-- One octet of `to5bit`. -/
def to5bitStep (buffer : BitBuffer Nat) (b : UInt8) : BitBuffer Nat :=
  let acc := shiftIn 8 buffer.acc b.toNat
  let emitted := emitGroups acc (buffer.bits + 8) buffer.out
  ⟨emitted.1, acc, emitted.2⟩

/-- Convert bytes to 5-bit groups. -/
def to5bit (data : Bytes) : List Nat :=
  let buffer := data.foldl to5bitStep ⟨[], 0, 0⟩
  if 0 < buffer.bits then
    buffer.out ++ [((buffer.acc <<< (5 - buffer.bits)) % 2 ^ 32) &&& 31]
  else buffer.out

/-- One group of `from5bit`. -/
def from5bitStep (buffer : BitBuffer UInt8) (b : Nat) : Result (BitBuffer UInt8) := do
  rejectIf (32 ≤ b) (.malformed "invalid 5-bit value")
  let acc := shiftIn 5 buffer.acc b
  let bits := buffer.bits + 5
  if 8 ≤ bits then
    .ok ⟨buffer.out ++ [UInt8.ofNat (acc >>> (bits - 8))], acc, bits - 8⟩
  else .ok ⟨buffer.out, acc, bits⟩

/-- Convert 5-bit groups back to bytes. -/
def from5bit (data : List Nat) : Result Bytes := do
  let buffer ← data.foldlM from5bitStep ⟨[], 0, 0⟩
  let mask := 1 <<< buffer.bits - 1
  rejectIf (5 ≤ buffer.bits ∨ buffer.acc &&& mask ≠ 0) (.malformed "invalid bech32 padding")
  .ok buffer.out

/-! ## Text -/

/-- The character of a 5-bit value. -/
def charsetAt (v : Nat) : Char := charset.getD v 'q'

/-- The six groups a thirty-bit checksum is written in. -/
def checksumGroups (checksum : Nat) : List Nat :=
  (List.range 6).map fun i => (checksum >>> (5 * (5 - i))) &&& 31

/-- Encode data as Bech32m with given HRP. -/
def bech32mEncode (hrp : String) (data : Bytes) : String :=
  let data5 := to5bit data
  let checksum := polymod (hrpExpand hrp ++ data5 ++ List.replicate 6 0) ^^^ bech32mConst
  hrp ++ "1" ++ String.ofList (data5.map charsetAt ++ (checksumGroups checksum).map charsetAt)

/-- The position of the last occurrence of a character. -/
def rfind (c : Char) : List Char → Option Nat
  | [] => none
  | head :: rest =>
    match rfind c rest with
    | some i => some (i + 1)
    | none => if head = c then some 0 else none

/-- Decode a data octet to its 5-bit value. -/
def charsetValue (c : UInt8) : Result Nat := do
  rejectIf (128 ≤ c.toNat) (.malformed "non-ASCII in address")
  okOr (.malformed s!"invalid character {Char.ofNat c.toNat} in address") (charsetRev c)

/-- Decode a Bech32m string into (hrp, data). -/
def bech32mDecode (s : String) : Result (String × Bytes) := do
  let sep ← okOr (.malformed "no separator in address") (rfind '1' s.toList)
  rejectIf (sep = 0) (.malformed "empty HRP")
  let hrp := String.ofList (s.toList.take sep)
  let dataStr := String.ofList (s.toList.drop (sep + 1))
  rejectIf ((utf8 dataStr).length < 6) (.malformed "address too short for checksum")
  let values ← (utf8 dataStr).mapM charsetValue
  rejectIf (polymod (hrpExpand hrp ++ values) ≠ bech32mConst)
    (.malformed "invalid bech32m checksum")
  let payload ← from5bit (values.take (values.length - 6))
  .ok (hrp, payload)

/-! ## The checksum determines its last six values -/

/-- The part of a step that depends on the bits shifted out. -/
def polymodFeedback (b : Nat) : Nat :=
  polymodGen.zipIdx.foldl
    (fun chk gi => if ((b &&& 0xFF) >>> gi.2) &&& 1 = 1 then chk ^^^ gi.1 else chk) 0

/-- The generators are added to whatever is in the register. -/
theorem foldl_xor_if {α : Type} (gens : List α) (taken : α → Prop) [DecidablePred taken]
    (gen : α → Nat) (left right : Nat) :
    gens.foldl (fun chk g => if taken g then chk ^^^ gen g else chk) (left ^^^ right) =
      left ^^^ gens.foldl (fun chk g => if taken g then chk ^^^ gen g else chk) right := by
  induction gens generalizing right with
  | nil => rfl
  | cons g gens ih =>
    rw [List.foldl_cons, List.foldl_cons]
    split
    · rw [Nat.xor_assoc, ih]
    · rw [ih]

/-- `polymod` is a shift register of thirty bits that takes in five at a time. -/
theorem polymodStep_eq : polymodStep = registerStep 5 25 polymodFeedback := by
  funext chk v
  have hmask : chk &&& 0x01ffffff = chk % 2 ^ 25 := Nat.and_two_pow_sub_one_eq_mod chk 25
  have hroom : (chk % 2 ^ 25) <<< 5 % 2 ^ 32 = (chk % 2 ^ 25) <<< 5 := by
    rw [Nat.shiftLeft_eq]
    omega
  rw [polymodStep, registerStep, hmask, hroom, polymodFeedback, ← foldl_xor_if, Nat.xor_zero]

theorem polymodFeedback_lt (b : Nat) : polymodFeedback b < 2 ^ 30 := by
  have hgens : ∀ gi ∈ polymodGen.zipIdx, gi.1 < 2 ^ 30 := by decide
  rw [polymodFeedback]
  refine List.foldlRecOn (motive := fun chk => chk < 2 ^ 30) polymodGen.zipIdx _ (by decide) ?_
  intro chk hchk gi hgi
  split
  · exact Nat.xor_lt_two_pow hchk (hgens gi hgi)
  · exact hchk

/-- The checksum of values within the register fits in thirty bits. -/
theorem polymod_lt (fits : ∀ v ∈ values, v < 2 ^ 30) : polymod values < 2 ^ 30 := by
  rw [polymod, polymodStep_eq]
  exact foldl_registerStep_lt polymodFeedback_lt fits (by decide)

/-- **Six consecutive values cannot change unnoticed**: the lowest five bits of the feedback tell the
five bits that were shifted out. -/
theorem window_eq_of_polymod {window window' back : List Nat} (hfront : ∀ v ∈ front, v < 2 ^ 30)
    (size : window.length = window'.length) (short : window.length ≤ 6)
    (hwindow : ∀ v ∈ window, v < 2 ^ 5) (hwindow' : ∀ v ∈ window', v < 2 ^ 5)
    (hback : ∀ v ∈ back, v < 2 ^ 30)
    (same : polymod (front ++ (window ++ back)) = polymod (front ++ (window' ++ back))) :
    window = window' := by
  have htelling : ∀ a < 2 ^ 5, ∀ b < 2 ^ 5,
      polymodFeedback a % 2 ^ 5 = polymodFeedback b % 2 ^ 5 → a = b := by decide +kernel
  simp only [polymod, List.foldl_append, polymodStep_eq] at same
  have hregister : front.foldl (registerStep 5 25 polymodFeedback) 1 < 2 ^ (25 + 5) :=
    foldl_registerStep_lt polymodFeedback_lt hfront (by decide)
  exact window_eq_of_foldl_registerStep htelling polymodFeedback_lt (by decide) hregister size
    (by omega) hwindow hwindow' hback same

/-- Six final values only add their own value to the checksum of six zeros. -/
theorem polymod_append_six (size : last.length = 6) (fits : ∀ v ∈ last, v < 2 ^ 5) :
    polymod (front ++ last) =
      polymod (front ++ List.replicate 6 0) ^^^ groupsValue 5 last := by
  rw [polymod, polymod, List.foldl_append, List.foldl_append, polymodStep_eq,
    foldl_registerStep fits (by omega), size]

theorem length_checksumGroups (checksum : Nat) : (checksumGroups checksum).length = 6 := rfl

theorem and_31 (v : Nat) : v &&& 31 = v % 2 ^ 5 := Nat.and_two_pow_sub_one_eq_mod v 5

theorem checksumGroups_lt (hv : v ∈ checksumGroups checksum) : v < 2 ^ 5 := by
  obtain ⟨i, -, rfl⟩ := List.mem_map.mp hv
  rw [and_31]
  exact Nat.mod_lt _ (by decide)

theorem groupsValue_checksumGroups (fits : checksum < 2 ^ 30) :
    groupsValue 5 (checksumGroups checksum) = checksum := by
  have hgroups : checksumGroups checksum = [checksum / 2 ^ 25 % 2 ^ 5, checksum / 2 ^ 20 % 2 ^ 5,
      checksum / 2 ^ 15 % 2 ^ 5, checksum / 2 ^ 10 % 2 ^ 5, checksum / 2 ^ 5 % 2 ^ 5,
      checksum / 2 ^ 0 % 2 ^ 5] := by
    simp only [checksumGroups, List.range, List.range.loop, List.map_cons, List.map_nil, and_31,
      Nat.shiftRight_eq_div_pow]
  simp only [hgroups, groupsValue, List.reverse_cons, List.reverse_nil, List.nil_append,
    List.cons_append, Nat.ofDigits_cons, Nat.ofDigits_nil]
  omega

/-- **The checksum is exact**: six final values pass the check precisely when they are the ones the
encoder writes. -/
theorem polymod_eq_const_iff (hfront : ∀ v ∈ front, v < 2 ^ 30)
    (size : last.length = 6) (fits : ∀ v ∈ last, v < 2 ^ 5) :
    polymod (front ++ last) = bech32mConst ↔
      last = checksumGroups (polymod (front ++ List.replicate 6 0) ^^^ bech32mConst) := by
  have hzeros : ∀ v ∈ front ++ List.replicate 6 0, v < 2 ^ 30 := by
    intro v hv
    rw [List.mem_append] at hv
    obtain hv | hv := hv
    · exact hfront v hv
    · rw [List.eq_of_mem_replicate hv]
      decide
  have hchecksum : polymod (front ++ List.replicate 6 0) ^^^ bech32mConst < 2 ^ 30 :=
    Nat.xor_lt_two_pow (polymod_lt hzeros) (by decide)
  rw [polymod_append_six size fits]
  generalize polymod (front ++ List.replicate 6 0) = chk at hchecksum ⊢
  constructor
  · intro h
    refine groupsValue_inj (by decide) (by rw [size, length_checksumGroups]) fits
      (fun v => checksumGroups_lt) ?_
    rw [groupsValue_checksumGroups hchecksum, ← h, ← Nat.xor_assoc, Nat.xor_self, Nat.zero_xor]
  · rintro rfl
    rw [groupsValue_checksumGroups hchecksum, ← Nat.xor_assoc, Nat.xor_self, Nat.zero_xor]

/-! ## Changing the width of the groups -/

theorem emitGroups_spec {out : List Nat} {acc bits : Nat} (h : Regrouped 8 5 input out acc bits) :
    Regrouped 8 5 input (emitGroups acc bits out).1 acc (emitGroups acc bits out).2 ∧
      (emitGroups acc bits out).2 < 5 := by
  induction bits, out using emitGroups.induct acc with
  | case1 out bits ih =>
    rw [emitGroups]
    rw [and_31] at ih ⊢
    exact ih h.shiftOut
  | case2 bits out few =>
    rw [emitGroups]
    · refine ⟨h, ?_⟩
      by_contra hmany
      exact few (bits - 5) (by omega)
    · exact few

/-- **What `to5bit` has written after some octets**: fewer than five bits are in hand. -/
theorem to5bit_loop {buffer : BitBuffer Nat}
    (h : Regrouped 8 5 input buffer.out buffer.acc buffer.bits) (few : buffer.bits < 5)
    (data : Bytes) :
    let final := data.foldl to5bitStep buffer
    Regrouped 8 5 (input ++ data.map UInt8.toNat) final.out final.acc final.bits ∧
      final.bits < 5 := by
  induction data generalizing input buffer with
  | nil => simpa using ⟨h, few⟩
  | cons b data ih =>
    have hin : Regrouped 8 5 (input ++ [b.toNat]) buffer.out _ _ :=
      h.shiftIn b.toNat_lt (by omega)
    obtain ⟨hstep, hfew⟩ := emitGroups_spec hin
    have hrest := @ih _ (to5bitStep buffer b) hstep hfew
    simpa using hrest

/-- Data of a multiple of five octets is written without padding. -/
theorem to5bit_regrouped (whole : data.length % 5 = 0) :
    ∃ acc, Regrouped 8 5 (data.map UInt8.toNat) (to5bit data) acc 0 := by
  obtain ⟨h, few⟩ := @to5bit_loop [] ⟨[], 0, 0⟩ (Regrouped.empty 8 5) (by decide) data
  have hsize := h.size
  rw [List.nil_append, List.length_map] at hsize
  have hbits : (data.foldl to5bitStep ⟨[], 0, 0⟩).bits = 0 := by omega
  rw [hbits] at h
  rw [to5bit, hbits, if_neg (by decide)]
  exact ⟨_, h⟩

/-- Every group `from5bit` consumes is within its width, and fewer than eight bits stay in hand. -/
theorem from5bit_loop {buffer : BitBuffer UInt8}
    (h : Regrouped 5 8 input (buffer.out.map UInt8.toNat) buffer.acc buffer.bits)
    (few : buffer.bits < 8) {data : List Nat} (fits : ∀ v ∈ data, v < 2 ^ 5) :
    ∃ final, data.foldlM from5bitStep buffer = .ok final ∧ final.bits < 8 ∧
      Regrouped 5 8 (input ++ data) (final.out.map UInt8.toNat) final.acc final.bits := by
  induction data generalizing input buffer with
  | nil => exact ⟨buffer, rfl, few, by simpa using h⟩
  | cons v data ih =>
    rw [List.forall_mem_cons] at fits
    have hin : Regrouped 5 8 (input ++ [v]) (buffer.out.map UInt8.toNat) _ _ :=
      h.shiftIn fits.1 (by omega)
    have hv : ¬ 32 ≤ v := Nat.not_le.mpr fits.1
    rw [List.foldlM_cons, from5bitStep, rejectIf_of_not _ hv, ok_bind, List.append_cons]
    by_cases hfull : 8 ≤ buffer.bits + 5
    · -- a whole octet is in hand
      rw [← Nat.sub_add_cancel hfull] at hin
      have hout := hin.shiftOut
      rw [if_pos hfull, ok_bind]
      refine ih ?_ (by dsimp only; omega) fits.2
      simpa using hout
    · rw [if_neg hfull, ok_bind]
      exact ih hin (Nat.not_le.mp hfull) fits.2

/-- The whole conversion, for groups within their width. -/
theorem from5bit_run (fits : ∀ v ∈ values, v < 2 ^ 5) :
    ∃ final : BitBuffer UInt8, values.foldlM from5bitStep ⟨[], 0, 0⟩ = .ok final ∧
      final.bits < 8 ∧ Regrouped 5 8 values (final.out.map UInt8.toNat) final.acc final.bits :=
  @from5bit_loop [] ⟨[], 0, 0⟩ (Regrouped.empty 5 8) (by decide) values fits

theorem toNat_lt_of_mem_map (hv : v ∈ data.map UInt8.toNat) : v < 2 ^ 8 := by
  obtain ⟨b, -, rfl⟩ := List.mem_map.mp hv
  exact b.toNat_lt

/-- **The two conversions are inverse** on data that needs no padding. -/
theorem from5bit_eq_ok (fits : ∀ v ∈ values, v < 2 ^ 5)
    (whole : data.length % 5 = 0) : from5bit values = .ok data ↔ to5bit data = values := by
  obtain ⟨final, hrun, hfew, hfrom⟩ := from5bit_run fits
  obtain ⟨acc, hto⟩ := to5bit_regrouped whole
  rw [from5bit, hrun, ok_bind]
  have hfromSize := hfrom.size
  have htoSize := hto.size
  rw [List.length_map] at hfromSize htoSize
  constructor
  · intro h
    obtain ⟨⟨⟩, hpad, hdata⟩ := bind_eq_ok.mp h
    cases hdata
    -- the rejected padding leaves fewer than five bits, hence none
    rw [rejectIf_eq_ok, not_or, Nat.not_le] at hpad
    have hbits : final.bits = 0 := by omega
    rw [hbits] at hfrom
    exact Regrouped.inverse (by decide) hfrom hto fits
  · rintro rfl
    have hbits : final.bits = 0 := by omega
    rw [hbits] at hfrom
    have hdata := hto.inverse (by decide) hfrom fun v => toNat_lt_of_mem_map
    have hout : final.out = data := List.map_injective_iff.mpr (fun _ _ => UInt8.toNat_inj.mp) hdata
    have hpad : ¬ (5 ≤ final.bits ∨ final.acc &&& (1 <<< final.bits - 1) ≠ 0) := by simp [hbits]
    dsimp only
    rw [rejectIf_of_not _ hpad, ok_bind, hout]

/-! ## The alphabet -/

theorem charsetAt_of_all {p : Char → Bool} (all : charset.all p = true) (v : Nat) :
    p (charsetAt v) = true := by
  rw [charsetAt, List.getD_eq_getElem?_getD]
  cases hv : charset[v]? with
  | none => exact List.all_eq_true.mp all 'q' (by decide)
  | some c => exact List.all_eq_true.mp all c (List.mem_of_getElem? hv)

theorem charsetAt_ascii (v : Nat) : (charsetAt v).toNat < 128 :=
  of_decide_eq_true (charsetAt_of_all (p := fun c => c.toNat < 128) (by decide) v)

/-- The separator is not a data character. -/
theorem charsetAt_ne_separator (v : Nat) : charsetAt v ≠ '1' :=
  of_decide_eq_true (charsetAt_of_all (p := fun c => c ≠ '1') (by decide) v)

theorem separator_not_mem (values : List Nat) : '1' ∉ values.map charsetAt := by
  intro hmem
  obtain ⟨v, -, hv⟩ := List.mem_map.mp hmem
  exact charsetAt_ne_separator v hv

/-- **A data octet is accepted exactly as the code of its value's character.** -/
theorem charsetValue_eq_ok {octet : UInt8} :
    charsetValue octet = .ok v ↔ v < 2 ^ 5 ∧ octet = UInt8.ofNat (charsetAt v).toNat := by
  simp only [charsetValue, bind_eq_ok, rejectIf_eq_ok, okOr_eq_ok]
  constructor
  · rintro ⟨-, -, hfind⟩
    obtain ⟨hv, heq, -⟩ := List.findIdx?_eq_some_iff_getElem.mp hfind
    refine ⟨hv, ?_⟩
    rw [charsetAt, List.getD_eq_getElem?_getD, List.getElem?_eq_getElem hv, Option.getD_some]
    exact (beq_iff_eq.mp heq).symm
  · rintro ⟨hv, rfl⟩
    have hall : ∀ v < 32, ¬ 128 ≤ (UInt8.ofNat (charsetAt v).toNat).toNat ∧
        charsetRev (UInt8.ofNat (charsetAt v).toNat) = some v := by decide
    exact ⟨(), (hall v hv).1, (hall v hv).2⟩

theorem utf8_charsetAt (values : List Nat) :
    utf8 (String.ofList (values.map charsetAt)) =
      values.map fun v => UInt8.ofNat (charsetAt v).toNat := by
  rw [utf8_of_ascii, List.map_map]
  · rfl
  · intro c hc
    obtain ⟨v, -, rfl⟩ := List.mem_map.mp hc
    exact charsetAt_ascii v

/-- The octets of data characters are read back as their values. -/
theorem mapM_charsetValue_eq_ok {text : String} :
    (utf8 text).mapM charsetValue = .ok values ↔
      (∀ v ∈ values, v < 2 ^ 5) ∧ text = String.ofList (values.map charsetAt) := by
  rw [mapM_eq_ok, ← utf8_injective.eq_iff, utf8_charsetAt]
  simp only [charsetValue_eq_ok]
  generalize utf8 text = octets
  induction octets generalizing values with
  | nil =>
    rw [List.forall₂_nil_left_iff]
    constructor
    · rintro rfl
      simp
    · rintro ⟨-, h⟩
      exact List.map_eq_nil_iff.mp h.symm
  | cons octet octets ih =>
    cases values with
    | nil => simp
    | cons v values =>
      rw [List.forall₂_cons, @ih values, List.forall_mem_cons, List.map_cons, List.cons.injEq]
      tauto

/-! ## The separator -/

theorem rfind_eq_none (absent : c ∉ chars) : rfind c chars = none := by
  induction chars with
  | nil => rfl
  | cons head rest ih =>
    rw [List.mem_cons, not_or] at absent
    rw [rfind, ih absent.2]
    exact if_neg (Ne.symm absent.1)

/-- The last occurrence is the one nothing follows. -/
theorem rfind_append {front back : List Char} (absent : c ∉ back) :
    rfind c (front ++ c :: back) = some front.length := by
  induction front with
  | nil => simp [rfind, rfind_eq_none absent]
  | cons head front ih => rw [List.cons_append, rfind, ih, List.length_cons]

theorem eq_append_of_rfind {i : Nat} (h : rfind c chars = some i) :
    ∃ front back, chars = front ++ c :: back ∧ front.length = i := by
  induction chars generalizing i with
  | nil => cases h
  | cons head rest ih =>
    rw [rfind] at h
    cases hrest : rfind c rest with
    | some j =>
      rw [hrest] at h
      cases h
      obtain ⟨front, back, rfl, rfl⟩ := ih hrest
      exact ⟨head :: front, back, rfl, rfl⟩
    | none =>
      rw [hrest] at h
      dsimp only at h
      split at h
      · cases h
        subst ‹head = c›
        exact ⟨[], rest, rfl, rfl⟩
      · cases h

/-! ## Decoding inverts encoding -/

theorem hrpExpand_lt (hv : v ∈ hrpExpand hrp) : v < 2 ^ 8 := by
  simp only [hrpExpand, List.mem_append, List.mem_map, List.mem_cons] at hv
  rcases hv with ⟨c, -, rfl⟩ | rfl | ⟨c, -, rfl⟩
  · exact (Nat.shiftRight_le _ _).trans_lt c.toNat_lt
  · decide
  · exact Nat.and_le_left.trans_lt c.toNat_lt

theorem to5bit_lt (whole : data.length % 5 = 0) : ∀ v ∈ to5bit data, v < 2 ^ 5 := by
  obtain ⟨acc, h⟩ := to5bit_regrouped whole
  exact h.fits

/-- The data part of an encoded text, as 5-bit values. -/
def encodedValues (hrp : String) (data : Bytes) : List Nat :=
  to5bit data ++
    checksumGroups (polymod (hrpExpand hrp ++ to5bit data ++ List.replicate 6 0) ^^^ bech32mConst)

theorem toList_bech32mEncode (hrp : String) (data : Bytes) :
    (bech32mEncode hrp data).toList =
      hrp.toList ++ '1' :: (encodedValues hrp data).map charsetAt := by
  simp [bech32mEncode, encodedValues]

/-- **The values that pass the checksum and carry the data are those the encoder writes.** -/
theorem values_eq_encodedValues (whole : data.length % 5 = 0) (fits : ∀ v ∈ values, v < 2 ^ 5)
    (long : 6 ≤ values.length) :
    polymod (hrpExpand hrp ++ values) = bech32mConst ∧
        from5bit (values.take (values.length - 6)) = .ok data ↔
      values = encodedValues hrp data := by
  -- the six checksum values are split off the end
  obtain ⟨front, last, rfl, hsize⟩ :
      ∃ front last, values = front ++ last ∧ last.length = 6 :=
    ⟨values.take (values.length - 6), values.drop (values.length - 6),
      (List.take_append_drop _ _).symm, by rw [List.length_drop]; omega⟩
  rw [List.forall_mem_append] at fits
  have hfront : ∀ v ∈ hrpExpand hrp ++ front, v < 2 ^ 30 := by
    rw [List.forall_mem_append]
    exact ⟨fun v hv => (hrpExpand_lt hv).trans (by decide),
      fun v hv => (fits.1 v hv).trans (by decide)⟩
  rw [← List.append_assoc, polymod_eq_const_iff hfront hsize fits.2, List.length_append, hsize,
    Nat.add_sub_cancel, List.take_left, from5bit_eq_ok fits.1 whole, encodedValues]
  constructor
  · rintro ⟨hlast, rfl⟩
    rw [← hlast]
  · intro h
    obtain ⟨rfl, hlast⟩ := List.append_inj' h (by rw [hsize, length_checksumGroups])
    exact ⟨hlast, rfl⟩

theorem le_length_encodedValues (hrp : String) (data : Bytes) :
    6 ≤ (encodedValues hrp data).length := by
  rw [encodedValues, List.length_append, length_checksumGroups]
  omega

theorem encodedValues_lt (hrp : String) (whole : data.length % 5 = 0) :
    ∀ v ∈ encodedValues hrp data, v < 2 ^ 5 := by
  rw [encodedValues, List.forall_mem_append]
  exact ⟨to5bit_lt whole, fun v => checksumGroups_lt⟩

theorem polymod_encodedValues (hrp : String) (whole : data.length % 5 = 0) :
    polymod (hrpExpand hrp ++ encodedValues hrp data) = bech32mConst :=
  ((values_eq_encodedValues whole (encodedValues_lt hrp whole)
    (le_length_encodedValues hrp data)).mpr rfl).1

/-- **Decoding inverts encoding exactly**: a text is read as `hrp` and `data` precisely when it is
the encoding of these, for data that needs no padding. -/
theorem bech32mDecode_eq_ok {s : String} (whole : data.length % 5 = 0) :
    bech32mDecode s = .ok (hrp, data) ↔ hrp ≠ "" ∧ s = bech32mEncode hrp data := by
  simp only [bech32mDecode, bind_eq_ok, okOr_eq_ok, rejectIf_eq_ok, mapM_charsetValue_eq_ok,
    not_not, Nat.not_lt, Except.ok.injEq, Prod.mk.injEq]
  constructor
  · rintro ⟨sep, hsep, ⟨⟩, hpos, ⟨⟩, hlong, values, ⟨hfits, htext⟩, ⟨⟩, hsum, payload, hpayload,
      rfl, rfl⟩
    obtain ⟨front, back, hs, rfl⟩ := eq_append_of_rfind hsep
    have hback : s.toList.drop (front.length + 1) = back := by rw [hs]; simp
    have hfront : s.toList.take front.length = front := by rw [hs, List.take_left]
    rw [hfront] at hsum ⊢
    rw [hback] at hlong htext
    rw [htext, utf8_charsetAt, List.length_map] at hlong
    have hvalues := (values_eq_encodedValues whole hfits hlong).mp ⟨hsum, hpayload⟩
    constructor
    · intro hempty
      have := congrArg String.toList hempty
      simp_all
    · apply String.toList_injective
      rw [toList_bech32mEncode, ← hvalues, hs, String.ofList_injective htext, String.toList_ofList]
  · rintro ⟨hne, rfl⟩
    have hlong := le_length_encodedValues hrp data
    have hfits := encodedValues_lt hrp whole
    obtain ⟨hsum, hpayload⟩ := (values_eq_encodedValues whole hfits hlong).mpr rfl
    have hsep := separator_not_mem (encodedValues hrp data)
    have hfront : (bech32mEncode hrp data).toList.take hrp.toList.length = hrp.toList := by
      rw [toList_bech32mEncode, List.take_left]
    have hback : (bech32mEncode hrp data).toList.drop (hrp.toList.length + 1) =
        (encodedValues hrp data).map charsetAt := by
      rw [toList_bech32mEncode]
      simp
    refine ⟨hrp.toList.length, by rw [toList_bech32mEncode, rfind_append hsep], (), ?_, (), ?_,
      encodedValues hrp data, ⟨hfits, by rw [hback]⟩, (), ?_, data, hpayload, ?_, rfl⟩
    · rwa [List.length_eq_zero_iff, String.toList_eq_nil_iff]
    · rwa [hback, utf8_charsetAt, List.length_map]
    · rwa [hfront, String.ofList_toList]
    · rw [hfront, String.ofList_toList]

end DomProtocol
