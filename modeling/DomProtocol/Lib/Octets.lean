import Mathlib

/-! # Octet strings and fixed-width numerals

Byte strings are lists of `UInt8`. **`leBytes`** and **`beBytes`** are the two positional numerals
every binary format is built from, with their readers `leNat` and `beNat`.

An array of `n` octets is represented by the `8 * n`-bit number its octets spell in big-endian
order: `Octets.toList` and `Octets.ofList` are inverse bijections between `Octets n` and the lists
of length `n`. -/

namespace DomProtocol

/-- A byte string of arbitrary length. -/
abbrev Bytes := List UInt8

/-! ## Little-endian and big-endian numerals -/

/-- The `width` least significant octets of `value`, least significant first. -/
def leBytes : Nat → Nat → Bytes
  | 0, _ => []
  | width + 1, value => UInt8.ofNat value :: leBytes width (value / 256)

/-- The number spelled by a byte string, least significant octet first. -/
def leNat : Bytes → Nat
  | [] => 0
  | octet :: rest => octet.toNat + 256 * leNat rest

/-- The `width` least significant octets of `value`, most significant first. -/
def beBytes (width value : Nat) : Bytes := (leBytes width value).reverse

/-- The number spelled by a byte string, most significant octet first. -/
def beNat (octets : Bytes) : Nat := leNat octets.reverse

@[simp] theorem length_leBytes (width value : Nat) : (leBytes width value).length = width := by
  induction width generalizing value with
  | zero => rfl
  | succ width ih => simp only [leBytes, List.length_cons, ih]

@[simp] theorem length_beBytes (width value : Nat) : (beBytes width value).length = width := by
  simp only [beBytes, List.length_reverse, length_leBytes]

/-- A numeral of `n` octets is below `256 ^ n`. -/
theorem leNat_lt (octets : Bytes) : leNat octets < 256 ^ octets.length := by
  induction octets with
  | nil => simp [leNat]
  | cons octet rest ih =>
    have hoctet : octet.toNat < 256 := octet.toNat_lt
    simp only [leNat, List.length_cons, pow_succ]
    omega

theorem beNat_lt (octets : Bytes) : beNat octets < 256 ^ octets.length := by
  simpa only [beNat, List.length_reverse] using leNat_lt octets.reverse

/-- Reading back the octets of a value that fits returns the value. -/
theorem leNat_leBytes {width value : Nat} (fits : value < 256 ^ width) :
    leNat (leBytes width value) = value := by
  induction width generalizing value with
  | zero => simp only [pow_zero, Nat.lt_one_iff] at fits; simp [leBytes, leNat, fits]
  | succ width ih =>
    have hrest : value / 256 < 256 ^ width := by
      rw [pow_succ] at fits
      omega
    simp only [leBytes, leNat, ih hrest, UInt8.toNat_ofNat']
    omega

theorem beNat_beBytes {width value : Nat} (fits : value < 256 ^ width) :
    beNat (beBytes width value) = value := by
  rw [beNat, beBytes, List.reverse_reverse, leNat_leBytes fits]

/-- Spelling out the number a byte string denotes returns the byte string. -/
theorem leBytes_leNat (octets : Bytes) : leBytes octets.length (leNat octets) = octets := by
  induction octets with
  | nil => rfl
  | cons octet rest ih =>
    have hoctet : octet.toNat < 256 := octet.toNat_lt
    have hlow : UInt8.ofNat (octet.toNat + 256 * leNat rest) = octet := by
      apply UInt8.toNat_inj.mp
      rw [UInt8.toNat_ofNat']
      omega
    have hhigh : (octet.toNat + 256 * leNat rest) / 256 = leNat rest := by omega
    simp only [List.length_cons, leBytes, leNat, hlow, hhigh, ih]

theorem beBytes_beNat (octets : Bytes) : beBytes octets.length (beNat octets) = octets := by
  have h := leBytes_leNat octets.reverse
  rw [List.length_reverse] at h
  rw [beBytes, beNat, h, List.reverse_reverse]

theorem leBytes_succ_eq_append (width value : Nat) :
    leBytes (width + 1) value = leBytes width value ++ [UInt8.ofNat (value / 256 ^ width)] := by
  induction width generalizing value with
  | zero => simp [leBytes]
  | succ width ih =>
    rw [leBytes, ih, leBytes, List.cons_append, Nat.div_div_eq_div_mul, pow_succ, mul_comm]

/-! ## Addition with carry -/

/-- Schoolbook addition of two numerals, least significant octet first, with a carry in. -/
def addCarry : Bytes → Bytes → Nat → Bytes × Nat
  | a :: as, b :: bs, carry =>
    let sum := a.toNat + b.toNat + carry
    let rest := addCarry as bs (sum / 256)
    (UInt8.ofNat sum :: rest.1, rest.2)
  | _, _, carry => ([], carry)

theorem length_addCarry {as bs : Bytes} (size : as.length = bs.length) (carry : Nat) :
    (addCarry as bs carry).1.length = as.length := by
  induction as generalizing bs carry with
  | nil => cases bs <;> rfl
  | cons a as ih =>
    cases bs with
    | nil => simp at size
    | cons b bs => simp [addCarry, ih (by simpa using size)]

/-- **Schoolbook addition adds**: the sum is what was written, and the carry out above it. -/
theorem leNat_addCarry {as bs : Bytes} (size : as.length = bs.length) (carry : Nat) :
    leNat (addCarry as bs carry).1 + 256 ^ as.length * (addCarry as bs carry).2 =
      leNat as + leNat bs + carry := by
  induction as generalizing bs carry with
  | nil =>
    obtain rfl := List.length_eq_zero_iff.mp size.symm
    simp [addCarry, leNat]
  | cons a as ih =>
    cases bs with
    | nil => simp at size
    | cons b bs =>
      have rest := ih (by simpa using size) ((a.toNat + b.toNat + carry) / 256)
      simp only [addCarry, leNat, List.length_cons, pow_succ, UInt8.toNat_ofNat']
      have split : 256 ^ as.length * 256 * (addCarry as bs ((a.toNat + b.toNat + carry) / 256)).2
          = 256 * (256 ^ as.length *
            (addCarry as bs ((a.toNat + b.toNat + carry) / 256)).2) := by ring
      rw [split]
      omega

/-! ## Fixed-size arrays -/

/-- An array of `n` octets, as the number its octets spell in big-endian order. -/
abbrev Octets (n : Nat) := BitVec (8 * n)

namespace Octets

-- the orders of the widths that key tables, each under a name of its own
instance transOrd32 : Std.TransOrd (Octets 32) := inferInstance

instance transOrd33 : Std.TransOrd (Octets 33) := inferInstance

instance lawfulEqOrd32 : Std.LawfulEqOrd (Octets 32) := inferInstance

instance lawfulEqOrd33 : Std.LawfulEqOrd (Octets 33) := inferInstance

instance lawfulBEq33 : LawfulBEq (Octets 33) := inferInstance

variable {n : Nat}

theorem two_pow_eight_mul (n : Nat) : 2 ^ (8 * n) = 256 ^ n := by
  rw [pow_mul]
  norm_num

/-- The octets of the array, first octet first. -/
def toList (array : Octets n) : Bytes := beBytes n array.toNat

/-- The array with the given octets; only meaningful for a list of length `n`. -/
def ofList (octets : Bytes) : Octets n := BitVec.ofNat (8 * n) (beNat octets)

@[simp] theorem length_toList (array : Octets n) : array.toList.length = n :=
  length_beBytes n _

@[simp] theorem ofList_toList (array : Octets n) : ofList array.toList = array := by
  have fits : array.toNat < 256 ^ n := by
    rw [← two_pow_eight_mul]
    exact array.isLt
  rw [ofList, toList, beNat_beBytes fits, BitVec.ofNat_toNat, BitVec.setWidth_eq]

theorem toList_ofList {octets : Bytes} (size : octets.length = n) :
    (ofList octets : Octets n).toList = octets := by
  have fits : beNat octets < 2 ^ (8 * n) := by
    rw [two_pow_eight_mul, ← size]
    exact beNat_lt octets
  rw [toList, ofList, BitVec.toNat_ofNat, Nat.mod_eq_of_lt fits, ← size, beBytes_beNat]

theorem toNat_eq_beNat (array : Octets n) : array.toNat = beNat array.toList := by
  rw [toList, beNat_beBytes]
  rw [← two_pow_eight_mul]
  exact array.isLt

/-- The first octet of an array is the most significant one. -/
theorem toNat_headD_toList (array : Octets (n + 1)) :
    (array.toList.headD 0).toNat = array.toNat / 256 ^ n := by
  have bound : array.toNat / 256 ^ n < 256 := by
    rw [Nat.div_lt_iff_lt_mul (by positivity), ← pow_succ', ← two_pow_eight_mul]
    exact array.isLt
  rw [toList, beBytes, leBytes_succ_eq_append, List.reverse_append, List.reverse_singleton,
    List.singleton_append, List.headD_cons, UInt8.toNat_ofNat', Nat.mod_eq_of_lt bound]

theorem toList_injective : Function.Injective (toList : Octets n → Bytes) :=
  Function.LeftInverse.injective ofList_toList

end Octets

/-! ## Text -/

/-- The octets of a text. -/
def utf8 (text : String) : Bytes := text.toUTF8.data.toList

/-- The text of a sequence of octets. -/
def fromUtf8 (octets : Bytes) : Option String := String.fromUTF8? ⟨octets.toArray⟩

/-- How many octets at the front start no character, if this is decided before the octets end: the
octets behind the first have to be admissible in its sequence. -/
def utf8ErrorLen : Bytes → Option Nat
  | [] => none
  | first :: rest =>
    let width := if first < 0xC2 then 0 else if first < 0xE0 then 1 else if first < 0xF0 then 2
      else if first < 0xF5 then 3 else 0
    let second : UInt8 × UInt8 := if first = 0xE0 then (0xA0, 0xBF) else if first = 0xED then
      (0x80, 0x9F) else if first = 0xF0 then (0x90, 0xBF) else if first = 0xF4 then (0x80, 0x8F)
      else (0x80, 0xBF)
    let fits := (rest.take width).zipIdx.takeWhile fun (octet, i) =>
      if i = 0 then second.1 ≤ octet ∧ octet ≤ second.2 else 0x80 ≤ octet ∧ octet ≤ 0xBF
    if fits.length = rest.length ∧ fits.length < width then none else some (fits.length + 1)

/-- How the standard library describes octets that are no text. -/
def utf8Error (octets : Bytes) : String :=
  let valid := ((List.range octets.length).findRev? fun n =>
    (fromUtf8 (octets.take n)).isSome).getD 0
  match utf8ErrorLen (octets.drop valid) with
  | some len => s!"invalid utf-8 sequence of {len} bytes from index {valid}"
  | none => s!"incomplete utf-8 byte sequence from index {valid}"

theorem fromUtf8_eq_some {octets : Bytes} {text : String} :
    fromUtf8 octets = some text ↔ octets = utf8 text := by
  unfold fromUtf8 String.fromUTF8?
  constructor
  · intro h
    split at h
    · cases h
      rfl
    · cases h
  · rintro rfl
    have hvalid : (⟨(utf8 text).toArray⟩ : ByteArray) = text.toByteArray := rfl
    rw [hvalid, dif_pos text.isValidUTF8]
    rfl

theorem utf8_injective : Function.Injective utf8 := by
  intro left right h
  have hleft : fromUtf8 (utf8 left) = some left := fromUtf8_eq_some.mpr rfl
  rw [h, fromUtf8_eq_some.mpr rfl] at hleft
  exact (Option.some.inj hleft).symm

/-- The octets of a list of characters are those of its characters, in order. -/
theorem utf8_ofList (chars : List Char) :
    utf8 (String.ofList chars) = chars.flatMap String.utf8EncodeChar := by
  rw [utf8, String.toUTF8_eq_toByteArray, String.toByteArray_ofList, List.utf8Encode]
  simp

/-- An ASCII character is a single octet. -/
theorem utf8EncodeChar_of_ascii {c : Char} (ascii : c.toNat < 128) :
    String.utf8EncodeChar c = [UInt8.ofNat c.toNat] := by
  have hle : c.val.toNat ≤ 127 := Nat.le_of_lt_succ ascii
  rw [String.utf8EncodeChar, if_pos hle]
  rfl

/-- The octets of a character outside ASCII are outside ASCII. -/
theorem le_of_mem_utf8EncodeChar {c : Char} (other : 128 ≤ c.toNat) {octet : UInt8}
    (hmem : octet ∈ String.utf8EncodeChar c) : 128 ≤ octet.toNat := by
  have hnot : ¬ c.val.toNat ≤ 127 := Nat.not_le.mpr other
  rw [String.utf8EncodeChar, if_neg hnot] at hmem
  split_ifs at hmem <;> simp only [List.mem_cons, List.not_mem_nil, or_false] at hmem
  all_goals
    rcases hmem with rfl | rfl | rfl | rfl <;> rw [UInt8.toNat_ofNat'] <;> omega

/-- The octets of an ASCII text are the codes of its characters. -/
theorem utf8_of_ascii {chars : List Char} (ascii : ∀ c ∈ chars, c.toNat < 128) :
    utf8 (String.ofList chars) = chars.map fun c => UInt8.ofNat c.toNat := by
  rw [utf8_ofList]
  induction chars with
  | nil => rfl
  | cons c chars ih =>
    rw [List.forall_mem_cons] at ascii
    rw [List.flatMap_cons, List.map_cons, utf8EncodeChar_of_ascii ascii.1, ih ascii.2]
    rfl

/-- A test on octets that only ASCII octets pass is a test on the characters. -/
theorem any_utf8 {p : UInt8 → Bool} (ascii : ∀ octet, p octet = true → octet.toNat < 128)
    (text : String) :
    (utf8 text).any p =
      text.toList.any fun c => decide (c.toNat < 128) && p (UInt8.ofNat c.toNat) := by
  rw [← String.ofList_toList (s := text), utf8_ofList, String.toList_ofList, List.any_flatMap]
  congr 1
  funext c
  by_cases hc : c.toNat < 128
  · simp [utf8EncodeChar_of_ascii hc, hc]
  · -- a multi-octet character passes neither test
    have hnone : (String.utf8EncodeChar c).any p = false := by
      rw [List.any_eq_false]
      intro octet hmem hp
      have := le_of_mem_utf8EncodeChar (Nat.not_lt.mp hc) hmem
      have := ascii octet hp
      omega
    simp [hnone, hc]

end DomProtocol
