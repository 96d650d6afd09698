import DomProtocol.Lib.Wire
import DomProtocol.Core

/-! # Canonical serialization (`dom-serialization`)

The byte **`Writer`** and the bounds-checked **`Reader`**, the two traits `DomSerialize` and
`DomDeserialize`, and what it means for a type to have a canonical wire format. **`WireFormat α`**
states the format of a type once: which values have an encoding, what it is, and between which
lengths it lies. The two halves of a canonical codec follow: `fromBytes_toBytes` and
`toBytes_of_fromBytes`. -/

namespace DomProtocol

/-! ## Writer -/

/-- Canonical byte writer: the octets written so far. -/
abbrev Writer := Bytes

namespace Writer

/-- An empty writer. -/
def new : Writer := []

/-- Write raw bytes without a length. -/
def writeBytes (w : Writer) (data : Bytes) : Writer := w ++ data

/-- Write a single byte. -/
def writeU8 (w : Writer) (value : UInt8) : Writer := w.writeBytes [value]

/-- Write a 32-bit number, little-endian. -/
def writeU32 (w : Writer) (value : UInt32) : Writer := w.writeBytes (leBytes 4 value.toNat)

/-- Write a 64-bit number, little-endian. -/
def writeU64 (w : Writer) (value : UInt64) : Writer := w.writeBytes (leBytes 8 value.toNat)

/-- Write a byte vector behind its 32-bit length. -/
def writeVec (w : Writer) (data : Bytes) : Result Writer :=
  if data.length < 2 ^ 32 then
    .ok ((w.writeU32 (UInt32.ofNat data.length)).writeBytes data)
  else .error (.malformed "vec length exceeds u32")

end Writer

/-- Canonical serialization trait. -/
class DomSerialize (α : Type) where
  serialize : α → Writer → Result Writer

export DomSerialize (serialize)

/-- Write a list of serializable items behind its 32-bit length. -/
def Writer.writeList {α : Type} [DomSerialize α] (w : Writer) (items : List α) : Result Writer :=
  if items.length < 2 ^ 32 then
    items.foldlM (fun acc item => serialize item acc) (w.writeU32 (UInt32.ofNat items.length))
  else .error (.malformed "list length exceeds u32")

/-- Serialize to a new byte string. -/
def toBytes {α : Type} [DomSerialize α] (value : α) : Result Bytes :=
  serialize value Writer.new

/-! ## Reader -/

/-- Canonical byte reader: the input and the current position in it. -/
structure Reader where
  data : Bytes
  pos : Nat

/-- A computation that reads from a `Reader` and may fail. -/
abbrev Decoder (α : Type) := StateT Reader (Except DomError) α

/-- Outcome of advancing the cursor. -/
inductive ReadAdvance where
  | endAt (position : Nat)
  | overflow
  | outOfBounds
  deriving DecidableEq

/-- Classify one cursor advance; positions are 64-bit. -/
def classifyReadAdvance (dataLen position count : Nat) : ReadAdvance :=
  if 2 ^ 64 ≤ position + count then .overflow
  else if position + count > dataLen then .outOfBounds
  else .endAt (position + count)

/-- The cursor advances exactly when neither the position overflows nor the input ends. -/
theorem classifyReadAdvance_eq_endAt {dataLen position count stop : Nat} :
    classifyReadAdvance dataLen position count = .endAt stop ↔
      stop = position + count ∧ position + count < 2 ^ 64 ∧ position + count ≤ dataLen := by
  unfold classifyReadAdvance
  split
  · simp only [reduceCtorEq, false_iff]
    omega
  · split
    · simp only [reduceCtorEq, false_iff]
      omega
    · simp only [ReadAdvance.endAt.injEq]
      omega

/-- Outcome of checking a declared list against the remaining input. -/
inductive ListBudget where
  | valid (required : Nat)
  | zeroItemSize
  | overflow
  | insufficient
  deriving DecidableEq

/-- Classify the minimum byte budget of a declared list; byte counts are 64-bit. -/
def classifyListBudget (count minimumItemSize remaining : Nat) : ListBudget :=
  if minimumItemSize = 0 then .zeroItemSize
  else if 2 ^ 64 ≤ count * minimumItemSize then .overflow
  else if count * minimumItemSize > remaining then .insufficient
  else .valid (count * minimumItemSize)

namespace Reader

/-- A reader at the start of its input. -/
def new (data : Bytes) : Reader := ⟨data, 0⟩

/-- Number of octets left. -/
def remaining (r : Reader) : Nat := r.data.length - r.pos

/-- Consume `n` octets. -/
def consume (n : Nat) : Decoder Bytes := fun r =>
  match classifyReadAdvance r.data.length r.pos n with
  | .endAt stop => .ok ((r.data.drop r.pos).take n, { r with pos := stop })
  | .overflow => .error (.malformed "position arithmetic overflow")
  | .outOfBounds => .error (.malformed
      s!"unexpected EOF: need {n} bytes at pos {r.pos}, have {r.remaining}")

/-- Read a single byte. -/
def readU8 : Decoder UInt8 := do
  let octets ← consume 1
  pure (UInt8.ofNat (leNat octets))

/-- Read a 32-bit number, little-endian. -/
def readU32 : Decoder UInt32 := do
  let octets ← consume 4
  pure (UInt32.ofNat (leNat octets))

/-- Read a 64-bit number, little-endian. -/
def readU64 : Decoder UInt64 := do
  let octets ← consume 8
  pure (UInt64.ofNat (leNat octets))

/-- Read exactly `n` octets into a fixed array. -/
def readArray (n : Nat) : Decoder (Octets n) := do
  let octets ← consume n
  pure (Octets.ofList octets)

/-- Read a length-prefixed byte vector of at most `maxLen` octets. -/
def readVec (maxLen : Nat) : Decoder Bytes := do
  let len ← readU32
  liftExcept (rejectIf (¬ len.toNat ≤ maxLen)
    (.malformed s!"vec length {len} exceeds limit {maxLen}"))
  consume len.toNat

/-- Assert that all bytes have been consumed. -/
def finish (r : Reader) : Result Unit :=
  rejectIf (r.pos ≠ r.data.length)
    (.malformed s!"trailing bytes: {r.remaining} byte(s) unconsumed")

end Reader

/-- Canonical deserialization trait. -/
class DomDeserialize (α : Type) where
  minSerializedSize : Nat
  deserialize : Decoder α

export DomDeserialize (deserialize)

namespace Reader

/-- Check that a declared number of items can fit into the remaining input. -/
def checkListBudget (count minItemSize : Nat) : Decoder Unit := fun r =>
  match classifyListBudget count minItemSize r.remaining with
  | .valid _ => .ok ((), r)
  | .zeroItemSize => .error (.internal "minimum serialized item size must be non-zero")
  | .overflow => .error (.malformed "list minimum serialized byte budget overflow")
  | .insufficient => .error (.malformed
      (s!"list count {count} requires at least {count * minItemSize} serialized bytes, " ++
        s!"but only {r.remaining} bytes remain"))

/-- Read a length-prefixed list of at most `maxCount` items. -/
def readList (α : Type) [DomDeserialize α] (maxCount : Nat) : Decoder (List α) := do
  let count ← readU32
  liftExcept (rejectIf (¬ count.toNat ≤ maxCount)
    (.malformed s!"list count {count} exceeds limit {maxCount}"))
  checkListBudget count.toNat (DomDeserialize.minSerializedSize α)
  readItems deserialize count.toNat

end Reader

/-- Deserialize a full byte string, rejecting trailing bytes. -/
def fromBytes (α : Type) [DomDeserialize α] (data : Bytes) : Result α := do
  let (value, r) ← (deserialize : Decoder α) (Reader.new data)
  r.finish
  pure value

/-! ## Laws of the reader

The cursor of a `Reader` is always faithful; it moves whenever there is input as long as positions
cannot overflow. -/

/-- The cursor underlying a `Reader`. -/
def wire : Cursor Reader where
  rest r := r.data.drop r.pos
  Sound _ := True
  Ready r := r.pos ≤ r.data.length ∧ r.data.length < 2 ^ 64

namespace Reader

/-- **Consuming `n` octets** parses every string of length `n` as itself. -/
theorem consume_spec (n : Nat) :
    Parses wire (consume n) (fun octets bs => octets.length = n ∧ bs = octets) where
  sound {r octets r'} _ hp := by
    unfold consume at hp
    cases hadvance : classifyReadAdvance r.data.length r.pos n with
    | overflow => simp [hadvance] at hp
    | outOfBounds => simp [hadvance] at hp
    | endAt stop =>
      simp only [hadvance, Except.ok.injEq, Prod.mk.injEq] at hp
      obtain ⟨rfl, rfl⟩ := hp
      obtain ⟨rfl, -, hbound⟩ := classifyReadAdvance_eq_endAt.mp hadvance
      refine ⟨_, ⟨?_, rfl⟩, ?_, trivial⟩
      · rw [List.length_take, List.length_drop]
        omega
      · simp only [wire]
        rw [← List.drop_drop, List.take_append_drop]
  complete {r octets bs tail} hready hR hrest := by
    obtain ⟨hlen, rfl⟩ := hR
    obtain ⟨hpos, hsize⟩ := hready
    simp only [wire] at hrest
    have htotal : r.pos + n + tail.length = r.data.length := by
      have := congrArg List.length hrest
      rw [List.length_drop, List.length_append] at this
      omega
    have hadvance : classifyReadAdvance r.data.length r.pos n = .endAt (r.pos + n) :=
      classifyReadAdvance_eq_endAt.mpr ⟨rfl, by omega, by omega⟩
    refine ⟨{ r with pos := r.pos + n }, ?_, ?_, ?_, hsize⟩
    · simp only [consume, hadvance, hrest]
      rw [← hlen, List.take_left]
    · simp only [wire]
      rw [← List.drop_drop, hrest, ← hlen, List.drop_left]
    · simp only
      omega

theorem readU8_spec : Parses wire readU8 (fun value bs => True ∧ bs = [value]) := by
  refine Parses.map _ (fun value => [value]) (consume_spec 1) (fun _ => rfl) (fun value => ?_)
    fun octets size => ?_
  · simp [leNat]
  · obtain ⟨octet, rfl⟩ := List.length_eq_one_iff.mp size
    simp [leNat]

theorem readU32_spec : Parses wire readU32 (fun value bs => True ∧ bs = leBytes 4 value.toNat) := by
  refine Parses.map _ (fun value : UInt32 => leBytes 4 value.toNat) (consume_spec 4)
    (fun _ => length_leBytes ..) (fun value => ?_) fun octets size => ?_
  · rw [leNat_leBytes (value.toNat_lt.trans_eq (by norm_num)), UInt32.ofNat_toNat]
  · have hlt : leNat octets < 2 ^ 32 := by
      have := leNat_lt octets
      rw [size] at this
      omega
    rw [UInt32.toNat_ofNat_of_lt' hlt, ← size, leBytes_leNat]

theorem readU64_spec : Parses wire readU64 (fun value bs => True ∧ bs = leBytes 8 value.toNat) := by
  refine Parses.map _ (fun value : UInt64 => leBytes 8 value.toNat) (consume_spec 8)
    (fun _ => length_leBytes ..) (fun value => ?_) fun octets size => ?_
  · rw [leNat_leBytes (value.toNat_lt.trans_eq (by norm_num)), UInt64.ofNat_toNat]
  · have hlt : leNat octets < 2 ^ 64 := by
      have := leNat_lt octets
      rw [size] at this
      omega
    rw [UInt64.toNat_ofNat_of_lt' hlt, ← size, leBytes_leNat]

theorem readArray_spec (n : Nat) :
    Parses wire (readArray n) (fun array bs => True ∧ bs = array.toList) :=
  Parses.map Octets.ofList Octets.toList (consume_spec n) Octets.length_toList Octets.ofList_toList
    fun _ => Octets.toList_ofList

end Reader

variable {β : Type} {R : β → Bytes → Prop} {b : β} {data : Bytes}

/-- Encoding of a byte vector behind its length. -/
def vecBytes (data : Bytes) : Bytes := leBytes 4 data.length ++ data

@[simp] theorem length_vecBytes (data : Bytes) : (vecBytes data).length = 4 + data.length := by
  simp [vecBytes]

theorem Writer.writeVec_spec (data : Bytes) :
    Writes (Writer.writeVec · data) (data.length < 2 ^ 32) (vecBytes data) := by
  intro w w'
  show (if _ then _ else _) = _ ↔ _
  by_cases size : data.length < 2 ^ 32
  · rw [if_pos size, Writer.writeU32, Writer.writeBytes, Writer.writeBytes,
      UInt32.toNat_ofNat_of_lt' size, vecBytes, List.append_assoc, Except.ok.injEq]
    exact ⟨fun h => ⟨size, h.symm⟩, fun h => h.2.symm⟩
  · rw [if_neg size]
    exact ⟨(nomatch ·), fun h => absurd h.1 size⟩

/-- **A length in front** of an encoding that it makes a prefix code. -/
theorem prefixCode_of_length {γ : Type} {n : γ → Nat} {V : γ → Prop} {e : γ → Bytes}
    (code : ∀ a b s t, n a = n b → V a → V b → e a ++ s = e b ++ t → a = b ∧ s = t) :
    PrefixCode (fun a => n a < 2 ^ 32 ∧ V a) (fun a => leBytes 4 (n a) ++ e a) := by
  intro a b s t ha hb h
  simp only [List.append_assoc] at h
  obtain ⟨hlen, hrest⟩ := List.append_inj h (by simp)
  have hsize := congrArg leNat hlen
  rw [leNat_leBytes (ha.1.trans_eq (by norm_num)), leNat_leBytes (hb.1.trans_eq (by norm_num))]
    at hsize
  exact code a b s t hsize ha.2 hb.2 hrest

theorem vecBytes_prefixCode : PrefixCode (fun data => data.length < 2 ^ 32) vecBytes := by
  intro a b s t ha hb h
  refine prefixCode_of_length (n := List.length) (V := fun _ => True) (e := id) ?_
    ⟨ha, trivial⟩ ⟨hb, trivial⟩ h
  exact fun _ _ _ _ size _ _ same => List.append_inj same size

/-- **A bounded byte vector** is parsed from its length and its octets. -/
theorem Reader.readVec_spec {maxLen : Nat} (small : maxLen < 2 ^ 32) :
    Parses wire (readVec maxLen) (fun data bs => data.length ≤ maxLen ∧ bs = vecBytes data) := by
  refine (Parses.lengthFirst (n := List.length) (V := fun _ => True) (e := id) readU32_spec small
    (fun len => by simp [rejectIf_eq_ok]) fun len =>
      (consume_spec len.toNat).congr fun data bs => ?_).congr fun data bs => ?_
  · rw [and_true, id]
  · rw [and_true, vecBytes, id]

/-- **Decoding what a parser accepts.** -/
theorem fromBytes_of_parses [DomDeserialize β] (spec : Parses wire (deserialize : Decoder β) R)
    (accepted : R b data)
    (fits : data.length < 2 ^ 64) : fromBytes β data = .ok b := by
  have hready : wire.Ready (Reader.new data) := ⟨Nat.zero_le _, fits⟩
  obtain ⟨r, hread, hrest, hpos, -⟩ := spec.complete hready accepted
    (show wire.rest (Reader.new data) = data ++ [] by rw [List.append_nil]; rfl)
  have hend : r.pos = r.data.length := by
    have := List.drop_eq_nil_iff.mp hrest
    omega
  rw [fromBytes, hread]
  simp [Reader.finish, hend, Pure.pure, Except.pure]

/-- **What decodes is accepted by the parser**, to the last octet. -/
theorem parses_of_fromBytes [DomDeserialize β] (spec : Parses wire (deserialize : Decoder β) R)
    (decoded : fromBytes β data = .ok b) : R b data := by
  rw [fromBytes, bind_eq_ok] at decoded
  obtain ⟨⟨b', r⟩, hread, hfinish⟩ := decoded
  simp only [bind_eq_ok, pure_eq_ok, Reader.finish, rejectIf_eq_ok, not_not] at hfinish
  obtain ⟨_, hend, rfl⟩ := hfinish
  obtain ⟨bs, haccepted, hrest, -⟩ := spec.sound trivial hread
  have hdata : data = bs := by simpa [wire, Reader.new, hend] using hrest
  rwa [hdata]

/-! ## Canonical wire formats -/

/-- **The canonical wire format of a type**: the values that have an encoding, the encoding, and
bounds on its length, with the proofs that the type's serializer and deserializer implement it. -/
class WireFormat (α : Type) [DomSerialize α] [DomDeserialize α] where
  Writable : α → Prop
  Valid : α → Prop
  encode : α → Bytes
  maxSize : Nat
  writable_of_valid : ∀ a, Valid a → Writable a
  serialize_spec : ∀ a, Writes (serialize a) (Writable a) (encode a)
  prefixCode : PrefixCode Writable encode
  deserialize_spec : Parses wire (deserialize : Decoder α) (fun a bs => Valid a ∧ bs = encode a)
  min_le_length : ∀ a, Valid a → DomDeserialize.minSerializedSize α ≤ (encode a).length
  length_le_max : ∀ a, Valid a → (encode a).length ≤ maxSize

export WireFormat (encode)

open WireFormat

section WireFormat

variable {α : Type} [DomSerialize α] [DomDeserialize α] [WireFormat α]

theorem toBytes_eq_ok {a : α} {data : Bytes} :
    toBytes a = .ok data ↔ Writable a ∧ data = encode a := by
  rw [toBytes, serialize_spec a]
  rfl

theorem toBytes_of_valid {a : α} (valid : Valid a) : toBytes a = .ok (encode a) :=
  toBytes_eq_ok.mpr ⟨writable_of_valid a valid, rfl⟩

/-- **Round trip.** Decoding the serialization of a valid value returns the value. -/
theorem fromBytes_toBytes {a : α} (valid : Valid a)
    (fits : maxSize α < 2 ^ 64) : fromBytes α (encode a) = .ok a :=
  fromBytes_of_parses deserialize_spec ⟨valid, rfl⟩
    ((length_le_max a valid).trans_lt fits)

/-- What decodes was written by the serializer, to the last octet. -/
theorem encode_of_fromBytes {a : α} {data : Bytes} (decoded : fromBytes α data = .ok a) :
    Valid a ∧ encode a = data := by
  obtain ⟨hvalid, hdata⟩ := parses_of_fromBytes deserialize_spec decoded
  exact ⟨hvalid, hdata.symm⟩

/-- **Canonicity.** A string that decodes is the serialization of what it decodes to. -/
theorem toBytes_of_fromBytes {a : α} {data : Bytes} (decoded : fromBytes α data = .ok a) :
    toBytes a = .ok data := by
  obtain ⟨hvalid, rfl⟩ := encode_of_fromBytes decoded
  exact toBytes_of_valid hvalid

/-- **Prefix freedom.** No accepted string is a proper initial part of another one: the decoder
stops at the end of the first encoding it finds and rejects what is left. -/
theorem eq_nil_of_fromBytes_append {a b : α} {front back : Bytes}
    (fits : maxSize α < 2 ^ 64) (short : fromBytes α front = .ok a)
    (long : fromBytes α (front ++ back) = .ok b) : back = [] := by
  obtain ⟨hvalid, rfl⟩ := encode_of_fromBytes short
  obtain ⟨hvalid', hlong⟩ := encode_of_fromBytes long
  have hready : wire.Ready (Reader.new (encode a ++ back)) :=
    ⟨Nat.zero_le _, hlong ▸ (length_le_max b hvalid').trans_lt fits⟩
  obtain ⟨r, hread, hrest, -⟩ := deserialize_spec.complete hready ⟨hvalid, rfl⟩
    (show wire.rest (Reader.new (encode a ++ back)) = encode a ++ back from rfl)
  rw [fromBytes, hread, ok_bind, bind_eq_ok] at long
  obtain ⟨_, hfinish, -⟩ := long
  rw [Reader.finish, rejectIf_eq_ok, not_not] at hfinish
  rw [← hrest]
  simp [wire, hfinish]

/-- **A canonical codec**: valid values survive a round trip; what decodes is the serialization of
what it decodes to, so no two strings decode to the same value; and a string with octets added to or
removed from the end of an accepted one is rejected. -/
structure CanonicalCodec (α : Type) [DomSerialize α] [DomDeserialize α] (Valid : α → Prop) :
    Prop where
  roundTrip : ∀ a, Valid a → ∃ data, toBytes a = .ok data ∧ fromBytes α data = .ok a
  reserialize : ∀ data a, fromBytes α data = .ok a → toBytes a = .ok data
  injective : ∀ data data' a, fromBytes α data = .ok a → fromBytes α data' = .ok a → data = data'
  trailing : ∀ data a tail, fromBytes α data = .ok a → tail ≠ [] →
    ∃ e, fromBytes α (data ++ tail) = .error e
  truncated : ∀ data tail a, fromBytes α (data ++ tail) = .ok a → tail ≠ [] →
    ∃ e, fromBytes α data = .error e

/-- Every wire format of bounded size is a canonical codec. -/
theorem WireFormat.canonicalCodec (fits : maxSize α < 2 ^ 64) :
    CanonicalCodec α Valid where
  roundTrip a valid := ⟨encode a, toBytes_of_valid valid, fromBytes_toBytes valid fits⟩
  reserialize _ _ := toBytes_of_fromBytes
  injective data data' a h h' := by
    rw [← (encode_of_fromBytes h).2, ← (encode_of_fromBytes h').2]
  trailing data a tail h hne := by
    cases hlong : fromBytes α (data ++ tail) with
    | error e => exact ⟨e, rfl⟩
    | ok b => exact absurd (eq_nil_of_fromBytes_append fits h hlong) hne
  truncated data tail a h hne := by
    cases hshort : fromBytes α data with
    | error e => exact ⟨e, rfl⟩
    | ok b => exact absurd (eq_nil_of_fromBytes_append fits hshort h) hne

end WireFormat

section Counted

variable {α : Type} {V : α → Prop} {encode : α → Bytes}

/-! ## Counted items

Some formats write a count and then the items with a codec of their own, and read them back without
the byte budget of `Reader.readList`. -/

/-- Write a 32-bit count, then the items. -/
def Writer.writeCounted {α : Type} (w : Writer) (overflow : String)
    (write : α → Writer → Result Writer) (items : List α) : Result Writer :=
  if items.length < 2 ^ 32 then
    items.foldlM (fun acc item => write item acc) (w.writeU32 (UInt32.ofNat items.length))
  else .error (.malformed overflow)

/-- Read a count of at most `maxCount`, then the items. -/
def Reader.readCounted {α : Type} (read : Decoder α) (maxCount : Nat) (excess : Nat → String) :
    Decoder (List α) := do
  let count ← readU32
  liftExcept (rejectIf (maxCount < count.toNat) (.malformed (excess count.toNat)))
  readItems read count.toNat

/-- Encoding of counted items. -/
def countedBytes {α : Type} (encode : α → Bytes) (items : List α) : Bytes :=
  leBytes 4 items.length ++ items.flatMap encode

theorem Writer.writeCounted_spec {write : α → Writer → Result Writer} (overflow : String)
    (each : ∀ a, Writes (write a) (V a) (encode a))
    (items : List α) : Writes (Writer.writeCounted · overflow write items)
      (items.length < 2 ^ 32 ∧ ∀ a ∈ items, V a) (countedBytes encode items) := by
  intro w w'
  show (if _ then _ else _) = _ ↔ _
  by_cases size : items.length < 2 ^ 32
  · rw [if_pos size, Writes.foldlM each items, Writer.writeU32, Writer.writeBytes,
      UInt32.toNat_ofNat_of_lt' size, countedBytes, List.append_assoc]
    exact ⟨fun h => ⟨⟨size, h.1⟩, h.2⟩, fun h => ⟨h.1.2, h.2⟩⟩
  · rw [if_neg size]
    exact ⟨(nomatch ·), fun h => absurd h.1.1 size⟩

theorem Reader.readCounted_spec {read : Decoder α}
    {maxCount : Nat} {excess : Nat → String} (small : maxCount < 2 ^ 32)
    (each : Parses wire read (fun a bs => V a ∧ bs = encode a)) :
    Parses wire (readCounted read maxCount excess) (fun items bs =>
      (items.length ≤ maxCount ∧ ∀ a ∈ items, V a) ∧ bs = countedBytes encode items) :=
  Parses.lengthFirst readU32_spec small (fun len => by simp [rejectIf_eq_ok]) fun len =>
    each.readItems len.toNat

end Counted

/-! ## Lists -/

/-- At most `maxCount` items of bounded size behind their count have an encoding of bounded
length. -/
theorem length_counted_le {α : Type} {encode : α → Bytes} {items : List α} {maxCount maxSize : Nat}
    (count : items.length ≤ maxCount) (size : ∀ a ∈ items, (encode a).length ≤ maxSize) :
    (leBytes 4 items.length ++ items.flatMap encode).length ≤ 4 + maxCount * maxSize := by
  have hitems : (items.flatMap encode).length ≤ items.length * maxSize := by
    rw [List.length_flatMap]
    refine (List.sum_le_card_nsmul _ maxSize ?_).trans_eq (by simp)
    intro n hn
    obtain ⟨a, ha, rfl⟩ := List.mem_map.mp hn
    exact size a ha
  have hmax := Nat.mul_le_mul_right maxSize count
  rw [List.length_append, length_leBytes]
  omega

/-- Encoding of a list behind its length. -/
def listBytes {α : Type} [DomSerialize α] [DomDeserialize α] [WireFormat α] (items : List α) :
    Bytes := leBytes 4 items.length ++ items.flatMap encode

section Lists

variable {α : Type} [DomSerialize α] [DomDeserialize α] [WireFormat α]

variable {count minItemSize : Nat} {r : Reader} {maxCount : Nat}

/-- A list can be written when its length fits the count and its items can be written. -/
def ListWritable (items : List α) : Prop :=
  items.length < 2 ^ 32 ∧ ∀ a ∈ items, WireFormat.Writable a

theorem Writer.writeList_spec (items : List α) :
    Writes (Writer.writeList · items) (ListWritable items) (listBytes items) :=
  Writer.writeCounted_spec _ serialize_spec items

/-- The count in front makes lists a prefix code. -/
theorem listBytes_prefixCode : PrefixCode ListWritable (listBytes : List α → Bytes) :=
  prefixCode_of_length fun _ _ _ _ size ha hb same => prefixCode.flatMap size ha hb same

/-- The budget check reads nothing. -/
theorem Reader.checkListBudget_sound {r' : Reader} {u : Unit}
    (h : checkListBudget count minItemSize r = .ok (u, r')) : r' = r := by
  unfold checkListBudget at h
  cases hbudget : classifyListBudget count minItemSize r.remaining <;> rw [hbudget] at h <;>
    cases h
  rfl

/-- The budget check passes when the input is long enough. -/
theorem Reader.checkListBudget_complete
    (positive : 0 < minItemSize) (small : count * minItemSize < 2 ^ 64)
    (enough : count * minItemSize ≤ r.remaining) :
    checkListBudget count minItemSize r = .ok ((), r) := by
  have hbudget : classifyListBudget count minItemSize r.remaining = .valid (count * minItemSize) := by
    unfold classifyListBudget
    rw [if_neg (by omega), if_neg (by omega), if_neg (by omega)]
  rw [checkListBudget, hbudget]

/-- Reading the items behind a budget check parses the same lists as reading them without it,
because no item is shorter than the declared minimum. -/
theorem Reader.checkedItems_spec (positive : 0 < DomDeserialize.minSerializedSize α)
    (small : count * DomDeserialize.minSerializedSize α < 2 ^ 64) :
    Parses wire (do
        checkListBudget count (DomDeserialize.minSerializedSize α)
        readItems (deserialize : Decoder α) count)
      (fun items bs => (items.length = count ∧ ∀ a ∈ items, Valid a) ∧
        bs = items.flatMap encode) where
  sound {r items r'} hs hp := by
    rcases hcheck : checkListBudget count (DomDeserialize.minSerializedSize α) r with e | ⟨u, mid⟩
    · simp [Bind.bind, StateT.bind, hcheck, Except.bind] at hp
    · obtain rfl := checkListBudget_sound hcheck
      have hitems : readItems (deserialize : Decoder α) count mid = .ok (items, r') := by
        simpa [Bind.bind, StateT.bind, hcheck, Except.bind] using hp
      exact (Parses.readItems deserialize_spec count).sound hs hitems
  complete {r items bs tail} hready hR hrest := by
    have henough : count * DomDeserialize.minSerializedSize α ≤ r.remaining := by
      have hmin := mul_le_length_flatMap (e := encode) fun a ha =>
        min_le_length a (hR.1.2 a ha)
      have hlen := congrArg List.length hrest
      simp only [wire, hR.2, List.length_drop, List.length_append] at hlen
      rw [← hR.1.1, remaining]
      omega
    obtain ⟨r', hitems, htail⟩ :=
      (Parses.readItems deserialize_spec count).complete hready hR hrest
    refine ⟨r', ?_, htail⟩
    simp [Bind.bind, StateT.bind, checkListBudget_complete positive small henough, Except.bind,
      hitems]

/-- **A bounded list** is parsed from its length and the encodings of its items. -/
theorem Reader.readList_spec (least : Nat) (size : DomDeserialize.minSerializedSize α = least)
    (positive : 0 < least) (smallItem : least < 2 ^ 32) (small : maxCount < 2 ^ 32) :
    Parses wire (readList α maxCount) (fun items bs =>
      (items.length ≤ maxCount ∧ ∀ a ∈ items, Valid a) ∧ bs = listBytes items) := by
  subst size
  refine Parses.lengthFirst readU32_spec small (fun count => by simp [rejectIf_eq_ok]) fun count =>
    checkedItems_spec positive ?_
  calc count.toNat * DomDeserialize.minSerializedSize α
      ≤ (2 ^ 32 - 1) * (2 ^ 32 - 1) := Nat.mul_le_mul (Nat.le_sub_one_of_lt count.toNat_lt)
        (Nat.le_sub_one_of_lt smallItem)
    _ < 2 ^ 64 := by norm_num

/-- A list of at most `maxCount` items has an encoding of bounded length. -/
theorem length_listBytes_le {items : List α} (count : items.length ≤ maxCount)
    (valid : ∀ a ∈ items, Valid a) :
    (listBytes items).length ≤ 4 + maxCount * maxSize α :=
  length_counted_le count fun a ha => length_le_max a (valid a ha)

end Lists

end DomProtocol
