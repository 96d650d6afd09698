import DomProtocol.Lib.Wire

/-! # Strict scanners

A **`Scan`** reads a byte string from the front: its state is what remains. `Scan.take` is the one
place where it can run short. The readers of arrays and of big-endian numbers come with their
`Parses` specification, and so do the two ways a format chooses: by a tag (**`Parses.tagged`**) and
not at all (`Parses.fail`). An **`ExactCodec`** accepts exactly the encodings, and no accepted
string is longer than another it extends. -/

namespace DomProtocol

variable {ε α β : Type}

/-- **A scanner** over the octets that remain. -/
abbrev Scan (ε α : Type) := StateT Bytes (Except ε) α

/-- The cursor of a scanner is always sound and ready. -/
def remaining : Cursor Bytes where
  rest octets := octets
  Sound _ := True
  Ready _ := True

namespace Parses

variable {σ : Type} {C : Cursor σ}

/-- Refusing reads nothing and returns nothing. -/
theorem fail (e : ε) : Parses C (liftExcept (.error e) : StateT σ (Except ε) α)
    (fun _ _ => False) where
  sound _ h := by cases h
  complete _ h _ := h.elim

/-- **A tagged format**: the tag of the value is read first, then what the tag announces. -/
theorem tagged {τ : Type} {p : StateT σ (Except ε) τ} {k : τ → StateT σ (Except ε) β}
    {e : τ → Bytes} {V : β → Prop} {B : β → Bytes} (tag : β → τ)
    (first : Parses C p (fun t bs => True ∧ bs = e t))
    (next : ∀ t, Parses C (k t) (fun b bs => (tag b = t ∧ V b) ∧ bs = B b)) :
    Parses C (p >>= k) (fun b bs => V b ∧ bs = e (tag b) ++ B b) := by
  refine (first.bind next).congr fun b bs => ?_
  constructor
  · rintro ⟨_, _, _, ⟨-, rfl⟩, ⟨⟨rfl, hV⟩, rfl⟩, rfl⟩
    exact ⟨hV, rfl⟩
  · rintro ⟨hV, rfl⟩
    exact ⟨tag b, _, _, ⟨trivial, rfl⟩, ⟨⟨rfl, hV⟩, rfl⟩, rfl⟩

end Parses

namespace Scan

/-- The next `count` octets. -/
def take (short : ε) (count : Nat) : Scan ε Bytes := fun octets =>
  if count ≤ octets.length then .ok (octets.take count, octets.drop count) else .error short

theorem take_spec (short : ε) (count : Nat) : Parses remaining (take short count)
    (fun octets bs => octets.length = count ∧ bs = octets) where
  sound {s octets s'} _ h := by
    simp only [take] at h
    split at h
    · rename_i enough
      cases h
      exact ⟨s.take count, ⟨List.length_take_of_le enough, rfl⟩,
        (List.take_append_drop count s).symm, trivial⟩
    · cases h
  complete {s octets bs tail} _ h hrest := by
    obtain ⟨rfl, rfl⟩ := h
    have hs : s = bs ++ tail := hrest
    refine ⟨tail, ?_, rfl, trivial⟩
    simp [take, hs]

/-- The next octet. -/
def takeU8 (short : ε) : Scan ε UInt8 := do
  let octets ← take short 1
  pure (octets.headD 0)

theorem takeU8_spec (short : ε) :
    Parses remaining (takeU8 short) (fun octet bs => True ∧ bs = [octet]) := by
  refine Parses.map (fun octets => octets.headD 0) (fun octet => [octet]) (take_spec short 1)
    (fun _ => rfl) (fun _ => rfl) ?_
  intro octets size
  obtain ⟨octet, rfl⟩ := List.length_eq_one_iff.mp size
  rfl

/-- The next `n` octets, as an array. -/
def takeArray (short : ε) (n : Nat) : Scan ε (Octets n) := do
  let octets ← take short n
  pure (Octets.ofList octets)

theorem takeArray_spec (short : ε) (n : Nat) :
    Parses remaining (takeArray short n) (fun array bs => True ∧ bs = array.toList) :=
  Parses.map Octets.ofList Octets.toList (take_spec short n) Octets.length_toList
    Octets.ofList_toList fun _ => Octets.toList_ofList

/-- The number of the next `width` octets, most significant first. -/
def takeNat (short : ε) (width : Nat) : Scan ε Nat := do
  let octets ← take short width
  pure (beNat octets)

theorem takeNat_spec (short : ε) (width : Nat) : Parses remaining (takeNat short width)
    (fun value bs => value < 256 ^ width ∧ bs = beBytes width value) := by
  refine (take_spec short width).last (fun octets => Parses.pure _) fun octets value => ?_
  constructor
  · rintro ⟨rfl, rfl⟩
    exact ⟨beNat_lt octets, (beBytes_beNat octets).symm⟩
  · rintro ⟨fits, rfl⟩
    exact ⟨length_beBytes width value, (beNat_beBytes fits).symm⟩

/-- The next two octets, as a number. -/
def takeU16 (short : ε) : Scan ε UInt16 := do
  let value ← takeNat short 2
  pure (UInt16.ofNat value)

theorem takeU16_spec (short : ε) :
    Parses remaining (takeU16 short) (fun value bs => True ∧ bs = beBytes 2 value.toNat) :=
  Parses.map UInt16.ofNat UInt16.toNat (takeNat_spec short 2) (fun value => value.toNat_lt)
    (fun _ => UInt16.ofNat_toNat) fun _ fits => UInt16.toNat_ofNat_of_lt' fits

/-- The next four octets, as a number. -/
def takeU32 (short : ε) : Scan ε UInt32 := do
  let value ← takeNat short 4
  pure (UInt32.ofNat value)

theorem takeU32_spec (short : ε) :
    Parses remaining (takeU32 short) (fun value bs => True ∧ bs = beBytes 4 value.toNat) :=
  Parses.map UInt32.ofNat UInt32.toNat (takeNat_spec short 4) (fun value => value.toNat_lt)
    (fun _ => UInt32.ofNat_toNat) fun _ fits => UInt32.toNat_ofNat_of_lt' fits

/-- The next eight octets, as a number. -/
def takeU64 (short : ε) : Scan ε UInt64 := do
  let value ← takeNat short 8
  pure (UInt64.ofNat value)

theorem takeU64_spec (short : ε) :
    Parses remaining (takeU64 short) (fun value bs => True ∧ bs = beBytes 8 value.toNat) :=
  Parses.map UInt64.ofNat UInt64.toNat (takeNat_spec short 8) (fun value => value.toNat_lt)
    (fun _ => UInt64.ofNat_toNat) fun _ fits => UInt64.toNat_ofNat_of_lt' fits

/-- A flag: no other octet than zero and one is accepted. -/
def takeBool (short unknown : ε) : Scan ε Bool := do
  let octet ← takeU8 short
  if octet = 0x00 then pure false
  else if octet = 0x01 then pure true
  else liftExcept (.error unknown)

/-- The octet of a flag. -/
def boolByte (flag : Bool) : UInt8 := if flag then 0x01 else 0x00

theorem takeBool_spec (short unknown : ε) :
    Parses remaining (takeBool short unknown) (fun flag bs => True ∧ bs = [boolByte flag]) := by
  refine Parses.congr (Parses.tagged (V := fun _ => True) (B := fun _ => []) boolByte
    (takeU8_spec short) fun octet => ?_) fun flag bs => by simp
  by_cases zero : octet = 0x00
  · rw [if_pos zero, zero]
    exact (Parses.pure false).congr fun flag bs => by cases flag <;> simp [boolByte]
  · rw [if_neg zero]
    by_cases one : octet = 0x01
    · rw [if_pos one, one]
      exact (Parses.pure true).congr fun flag bs => by cases flag <;> simp [boolByte]
    · rw [if_neg one]
      refine (Parses.fail unknown).congr fun flag bs => ?_
      cases flag <;> simp [boolByte, eq_comm, zero, one]

/-- An optional value: an octet tells whether it is there. -/
def takeOption (short unknown : ε) (p : Scan ε α) : Scan ε (Option α) := do
  let octet ← takeU8 short
  if octet = 0x00 then pure none
  else if octet = 0x01 then do
    let value ← p
    pure (some value)
  else liftExcept (.error unknown)

/-- The octets of an optional value. -/
def optionBytes (e : α → Bytes) : Option α → Bytes
  | none => [0x00]
  | some value => 0x01 :: e value

theorem takeOption_spec (short unknown : ε) {p : Scan ε α} {e : α → Bytes}
    (spec : Parses remaining p (fun value bs => True ∧ bs = e value)) :
    Parses remaining (takeOption short unknown p)
      (fun value bs => True ∧ bs = optionBytes e value) := by
  refine Parses.congr (Parses.tagged (V := fun _ => True) (B := fun value => value.elim [] e)
    (fun value : Option α => boolByte value.isSome) (takeU8_spec short) fun octet => ?_)
    fun value bs => by cases value <;> simp [optionBytes, boolByte]
  by_cases zero : octet = 0x00
  · rw [if_pos zero, zero]
    exact (Parses.pure none).congr fun value bs => by cases value <;> simp [boolByte]
  · rw [if_neg zero]
    by_cases one : octet = 0x01
    · rw [if_pos one, one]
      refine (spec.bind fun value => Parses.pure (some value)).congr fun value bs => ?_
      cases value <;> simp [boolByte]
    · rw [if_neg one]
      refine (Parses.fail unknown).congr fun value bs => ?_
      cases value <;> simp [boolByte, eq_comm, zero, one]

/-- **Decode a whole string**: nothing may remain. -/
def decodeAll (p : Scan ε α) (trailing : ε) (octets : Bytes) : Except ε α := do
  let (value, rest) ← p octets
  rejectIf (rest ≠ []) trailing
  pure value

end Scan

variable {V : α → Prop} {e : α → Bytes} {p : Scan ε α}

/-- **An exact codec**: the decoder accepts exactly the encodings, and an accepted string with octets
added to or removed from its end is not accepted. -/
structure ExactCodec (decode : Bytes → Except ε α) (Encodes : α → Bytes → Prop) : Prop where
  decode_eq_ok : ∀ octets a, decode octets = .ok a ↔ Encodes a octets
  prefixFree : ∀ octets tail a b, decode octets = .ok a → decode (octets ++ tail) = .ok b → tail = []

/-- A decoder that accepts the encodings of a prefix code is exact. -/
theorem ExactCodec.of_prefixCode {decode : Bytes → Except ε α}
    (accepts : ∀ octets a, decode octets = .ok a ↔ V a ∧ octets = e a) (code : PrefixCode V e) :
    ExactCodec decode (fun a octets => V a ∧ octets = e a) where
  decode_eq_ok := accepts
  prefixFree octets tail a b ha hb := by
    obtain ⟨va, rfl⟩ := (accepts _ _).mp ha
    obtain ⟨vb, hb⟩ := (accepts _ _).mp hb
    exact (code va vb (by rw [hb, List.append_nil])).2

variable (spec : Parses remaining p (fun a bs => V a ∧ bs = e a)) {a : α}
include spec

/-- **A scanner goes on behind the encoding** it has read. -/
theorem Parses.bind_append (valid : V a) (rest : Bytes) (k : α → Scan ε β) :
    (p >>= k) (e a ++ rest) = k a rest := by
  obtain ⟨_, scanned, rfl, -⟩ := spec.complete (s := e a ++ rest) trivial ⟨valid, rfl⟩ rfl
  simp only [Bind.bind, StateT.bind, scanned, Except.bind]
  rfl

/-- The encoding may be all there is. -/
theorem Parses.bind_encoding (valid : V a) (k : α → Scan ε β) : (p >>= k) (e a) = k a [] := by
  simpa using spec.bind_append valid [] k

/-- What a scanner accepts is a prefix code. -/
theorem Parses.prefixCode : PrefixCode V e := by
  intro a b s t ha hb same
  obtain ⟨_, hfirst, rfl, -⟩ := spec.complete (s := e a ++ s) trivial ⟨ha, rfl⟩ rfl
  obtain ⟨_, hsecond, rfl, -⟩ := spec.complete (s := e b ++ t) trivial ⟨hb, rfl⟩ rfl
  rw [same, hsecond] at hfirst
  cases hfirst
  exact ⟨rfl, rfl⟩

/-- **What a whole-string decoder accepts.** -/
theorem Parses.decodeAll_eq_ok {trailing : ε} {octets : Bytes} :
    Scan.decodeAll p trailing octets = .ok a ↔ V a ∧ octets = e a := by
  simp only [Scan.decodeAll, bind_eq_ok, rejectIf_eq_ok, pure_eq_ok, Prod.exists, not_not]
  constructor
  · rintro ⟨value, rest, scanned, _, rfl, rfl⟩
    obtain ⟨bs, ⟨hV, rfl⟩, hrest, -⟩ := spec.sound trivial scanned
    exact ⟨hV, hrest.trans (List.append_nil _)⟩
  · rintro ⟨hV, rfl⟩
    have whole : remaining.rest (e a) = e a ++ [] := (List.append_nil _).symm
    obtain ⟨rest, scanned, hrest, -⟩ := spec.complete trivial ⟨hV, rfl⟩ whole
    exact ⟨a, rest, scanned, (), hrest, rfl⟩

end DomProtocol
