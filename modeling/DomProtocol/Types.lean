import DomProtocol.Crypto

/-! # Transactions, headers and blocks (`dom-consensus`)

The consensus objects and their codecs, field by field in wire order. Every type has its
`WireFormat` instance next to it: the serializer writes `encode`, the deserializer parses exactly
the encodings of the valid values, and the declared minimum sizes are lower bounds.

What makes a value valid is what the decoder enforces and the types do not already carry: list and
vector lengths within the limits, and the features octet of a coinbase kernel. -/

namespace DomProtocol

open WireFormat

open Reader (readArray_spec readArray readU64 readU64_spec readList readList_spec)

open Parses (congr field record)

/-! ## Primitive formats -/

/-- Arrays are a prefix code. -/
theorem octets_prefixCode {n : Nat} :
    PrefixCode (fun _ : Octets n => True) (fun array => array.toList) :=
  PrefixCode.of_fixed (fun array _ => Octets.length_toList array) fun _ _ _ _ h =>
    Octets.toList_injective h

/-- So are 32-bit numbers. -/
theorem u32_prefixCode : PrefixCode (fun _ : UInt32 => True) (fun v => leBytes 4 v.toNat) := by
  refine PrefixCode.of_fixed (fun _ _ => length_leBytes ..) fun a b _ _ h => ?_
  have hnat := congrArg leNat h
  rw [leNat_leBytes (a.toNat_lt.trans_eq (by norm_num)),
    leNat_leBytes (b.toNat_lt.trans_eq (by norm_num))] at hnat
  exact UInt32.toNat_inj.mp hnat

/-- So are 64-bit numbers. -/
theorem u64_prefixCode : PrefixCode (fun _ : UInt64 => True) (fun v => leBytes 8 v.toNat) := by
  refine PrefixCode.of_fixed (fun _ _ => length_leBytes ..) fun a b _ _ h => ?_
  have hnat := congrArg leNat h
  rw [leNat_leBytes (a.toNat_lt.trans_eq (by norm_num)),
    leNat_leBytes (b.toNat_lt.trans_eq (by norm_num))] at hnat
  exact UInt64.toNat_inj.mp hnat

instance : DomSerialize Hash256 where
  serialize hash w := .ok (w.writeBytes hash.toList)

instance : DomDeserialize Hash256 where
  minSerializedSize := 32
  deserialize := readArray 32

instance : WireFormat Hash256 where
  Writable _ := True
  Valid _ := True
  encode hash := hash.toList
  maxSize := 32
  writable_of_valid _ _ := trivial
  serialize_spec _ := Writes.of_ok fun _ => rfl
  prefixCode := octets_prefixCode
  deserialize_spec := readArray_spec 32
  min_le_length hash _ := (Octets.length_toList hash).ge
  length_le_max hash _ := (Octets.length_toList hash).le

/-- Heights and timestamps are written as 64-bit numbers. -/
instance : DomSerialize UInt64 where
  serialize value w := .ok (w.writeU64 value)

instance : DomDeserialize UInt64 where
  minSerializedSize := 8
  deserialize := readU64

instance : WireFormat UInt64 where
  Writable _ := True
  Valid _ := True
  encode value := leBytes 8 value.toNat
  maxSize := 8
  writable_of_valid _ _ := trivial
  serialize_spec _ := Writes.of_ok fun _ => rfl
  prefixCode := u64_prefixCode
  deserialize_spec := readU64_spec
  min_le_length _ _ := (length_leBytes ..).ge
  length_le_max _ _ := (length_leBytes ..).le

/-- Bitcoin-style compact target. -/
abbrev CompactTarget := UInt32

instance : DomSerialize CompactTarget where
  serialize target w := .ok (w.writeU32 target)

instance : DomDeserialize CompactTarget where
  minSerializedSize := 4
  deserialize := Reader.readU32

instance : WireFormat CompactTarget where
  Writable _ := True
  Valid _ := True
  encode target := leBytes 4 target.toNat
  maxSize := 4
  writable_of_valid _ _ := trivial
  serialize_spec _ := Writes.of_ok fun _ => rfl
  prefixCode := u32_prefixCode
  deserialize_spec := Reader.readU32_spec
  min_le_length _ _ := (length_leBytes ..).ge
  length_le_max _ _ := (length_leBytes ..).le

instance : DomSerialize Amount where
  serialize amount w := .ok (w.writeU64 amount.noms)

instance : DomDeserialize Amount where
  minSerializedSize := 8
  deserialize := do
    let noms ← readU64
    liftExcept (Amount.fromNoms noms)

instance : WireFormat Amount where
  Writable _ := True
  Valid _ := True
  encode amount := leBytes 8 amount.noms.toNat
  maxSize := 8
  writable_of_valid _ _ := trivial
  serialize_spec _ := Writes.of_ok fun _ => rfl
  prefixCode a b s t _ _ h := by
    obtain ⟨hnoms, hst⟩ := u64_prefixCode trivial trivial h
    exact ⟨Amount.ext hnoms, hst⟩
  deserialize_spec := readU64_spec.last (fun noms => Parses.lift (Amount.fromNoms noms))
    fun _ _ => and_congr_right' (Amount.fromNoms_eq_ok.trans eq_comm)
  min_le_length _ _ := (length_leBytes ..).ge
  length_le_max _ _ := (length_leBytes ..).le

/-- Read the features octet of a coinbase kernel, which has one admissible value. -/
def readCoinbaseFeatures : Decoder UInt8 := do
  let features ← Reader.readU8
  liftExcept (rejectIf (features ≠ kernelFeatCoinbase) (.malformed
    s!"expected coinbase features 0x01, got 0x{hexNat 2 features.toNat}"))
  pure features

/-- Only the coinbase octet is accepted. -/
theorem readCoinbaseFeatures_spec : Parses wire readCoinbaseFeatures
    (fun features bs => features = kernelFeatCoinbase ∧ bs = [features]) := by
  refine (Reader.readU8_spec.bind fun features => (Parses.lift _).bind fun _ =>
    Parses.pure features).congr fun features bs => ?_
  simp only [rejectIf_eq_ok, not_not]
  constructor
  · rintro ⟨_, _, _, ⟨_, rfl⟩, ⟨_, _, _, ⟨hfeatures, rfl⟩, ⟨rfl, rfl⟩, rfl⟩, rfl⟩
    exact ⟨hfeatures, rfl⟩
  · rintro ⟨hfeatures, rfl⟩
    exact ⟨features, _, _, ⟨trivial, rfl⟩, ⟨(), [], [], ⟨hfeatures, rfl⟩, ⟨rfl, rfl⟩, rfl⟩, rfl⟩

variable [Primitives]

/-- Read 33 octets and check that they encode a curve point. -/
def readCommitment : Decoder Commitment := do
  let bytes ← readArray 33
  liftExcept (Commitment.fromCompressedBytes bytes)

/-- Commitments are read from their octets. -/
theorem readCommitment_spec : Parses wire readCommitment (fun c bs => True ∧ bs = c.bytes.toList) :=
  (readArray_spec 33).last (fun bytes => Parses.lift (Commitment.fromCompressedBytes bytes))
    fun _ _ => and_congr_right' (Commitment.fromCompressedBytes_eq_ok.trans eq_comm)

/-- Commitments are a prefix code. -/
theorem commitment_prefixCode :
    PrefixCode (fun _ : Commitment => True) (fun c => c.bytes.toList) := by
  intro a b s t _ _ h
  obtain ⟨hbytes, hst⟩ := octets_prefixCode trivial trivial h
  exact ⟨Commitment.ext hbytes, hst⟩

/-! ## Transactions -/

/-- A transaction input. -/
@[ext] structure TransactionInput where
  commitment : Commitment
  deriving DecidableEq

instance : DomSerialize TransactionInput where
  serialize input w := .ok (w.writeBytes input.commitment.bytes.toList)

instance : DomDeserialize TransactionInput where
  minSerializedSize := 33
  deserialize := do
    let commitment ← readCommitment
    pure ⟨commitment⟩

instance : WireFormat TransactionInput where
  Writable _ := True
  Valid _ := True
  encode input := input.commitment.bytes.toList
  maxSize := 33
  writable_of_valid _ _ := trivial
  serialize_spec _ := Writes.of_ok fun _ => rfl
  prefixCode a b s t _ _ h := by
    obtain ⟨hc, hst⟩ := commitment_prefixCode trivial trivial h
    exact ⟨TransactionInput.ext hc, hst⟩
  deserialize_spec := by
    refine congr (field (P := fun _ => True) TransactionInput.commitment
      readCommitment_spec fun c => record fun input => ?_) fun input bs => ?_
    · simp [TransactionInput.ext_iff]
    · simp
  min_le_length input _ := (Octets.length_toList input.commitment.bytes).ge
  length_le_max input _ := (Octets.length_toList input.commitment.bytes).le

/-- A transaction output with its proof envelope: the range proof, and for recoverable outputs a
recovery capsule behind it. -/
@[ext] structure TransactionOutput where
  commitment : Commitment
  proof : Bytes
  deriving DecidableEq

instance : DomSerialize TransactionOutput where
  serialize output w := do
    let w := w.writeBytes output.commitment.bytes.toList
    w.writeVec output.proof

instance : DomDeserialize TransactionOutput where
  minSerializedSize := 33 + 4
  deserialize := do
    let commitmentBytes ← readArray 33
    let proof ← Reader.readVec maxOutputProofEnvelopeSize
    -- the point check comes after both reads, as in the source
    let commitment ← liftExcept (Commitment.fromCompressedBytes commitmentBytes)
    pure ⟨commitment, proof⟩

instance : WireFormat TransactionOutput where
  Writable output := True ∧ output.proof.length < 2 ^ 32
  Valid output := output.proof.length ≤ maxOutputProofEnvelopeSize
  encode output := output.commitment.bytes.toList ++ vecBytes output.proof
  maxSize := 33 + (4 + maxOutputProofEnvelopeSize)
  writable_of_valid _ valid := ⟨trivial, valid.trans_lt (by decide)⟩
  serialize_spec output :=
    (Writes.of_ok fun _ => rfl).bind (Writer.writeVec_spec output.proof)
  prefixCode a b s t ha hb h := by
    rw [List.append_assoc, List.append_assoc] at h
    obtain ⟨hc, h⟩ := commitment_prefixCode trivial trivial h
    obtain ⟨hproof, hst⟩ := vecBytes_prefixCode ha.2 hb.2 h
    exact ⟨TransactionOutput.ext hc hproof, hst⟩
  deserialize_spec := by
    refine congr ((readArray_spec 33).bind fun bytes =>
      (Reader.readVec_spec (by decide)).bind fun proof =>
        (Parses.lift (Commitment.fromCompressedBytes bytes)).bind fun c =>
          Parses.pure _) fun output bs => ?_
    constructor
    · rintro ⟨bytes, _, _, ⟨_, rfl⟩, ⟨proof, _, _, ⟨hproof, rfl⟩,
        ⟨c, _, _, ⟨hc, rfl⟩, ⟨rfl, rfl⟩, rfl⟩, rfl⟩, rfl⟩
      rw [Commitment.fromCompressedBytes_eq_ok.mp hc]
      exact ⟨hproof, by simp⟩
    · rintro ⟨hproof, rfl⟩
      exact ⟨output.commitment.bytes, _, _, ⟨trivial, rfl⟩, ⟨output.proof, _, _, ⟨hproof, rfl⟩,
        ⟨output.commitment, [], [], ⟨Commitment.fromCompressedBytes_eq_ok.mpr rfl, rfl⟩,
          ⟨rfl, rfl⟩, rfl⟩, (List.append_nil _).symm⟩, rfl⟩
  min_le_length output _ := by
    rw [List.length_append, Octets.length_toList, length_vecBytes]
    exact Nat.add_le_add_left (Nat.le_add_right _ _) _
  length_le_max output valid := by
    rw [List.length_append, Octets.length_toList, length_vecBytes]
    exact Nat.add_le_add_left (Nat.add_le_add_left valid _) _

/-- Standard transaction kernel. -/
@[ext] structure TransactionKernel where
  features : UInt8
  fee : Amount
  lockHeight : UInt64
  excess : Commitment
  excessSignature : Octets 65
  deriving DecidableEq

instance : DomSerialize TransactionKernel where
  serialize kernel w := do
    let w := w.writeU8 kernel.features
    let w ← serialize kernel.fee w
    let w := w.writeU64 kernel.lockHeight
    let w := w.writeBytes kernel.excess.bytes.toList
    let w := w.writeBytes kernel.excessSignature.toList
    pure w

instance : DomDeserialize TransactionKernel where
  minSerializedSize := 1 + 8 + 8 + 33 + 65
  deserialize := do
    let features ← Reader.readU8
    let fee ← deserialize
    let lockHeight ← readU64
    let excess ← readCommitment
    let excessSignature ← readArray 65
    pure ⟨features, fee, lockHeight, excess, excessSignature⟩

instance : WireFormat TransactionKernel where
  Writable _ := True
  Valid _ := True
  encode kernel := [kernel.features] ++ (encode kernel.fee ++ (leBytes 8 kernel.lockHeight.toNat ++
    (kernel.excess.bytes.toList ++ kernel.excessSignature.toList)))
  maxSize := 1 + 8 + 8 + 33 + 65
  writable_of_valid _ _ := trivial
  serialize_spec kernel := Writes.of_ok fun w => by
    simp [serialize, encode, Writer.writeU8, Writer.writeU64, Writer.writeBytes, Pure.pure,
      Except.pure]
  prefixCode a b s t _ _ h := by
    simp only [List.append_assoc, List.cons_append, List.nil_append, List.cons.injEq] at h
    obtain ⟨hfeatures, h⟩ := h
    obtain ⟨hfee, h⟩ := prefixCode trivial trivial h
    obtain ⟨hlock, h⟩ := u64_prefixCode trivial trivial h
    obtain ⟨hexcess, h⟩ := commitment_prefixCode trivial trivial h
    obtain ⟨hsig, hst⟩ := octets_prefixCode trivial trivial h
    exact ⟨TransactionKernel.ext hfeatures hfee hlock hexcess hsig, hst⟩
  deserialize_spec := by
    refine congr (field (P := fun _ => True) TransactionKernel.features
      Reader.readU8_spec fun features => field TransactionKernel.fee
      deserialize_spec fun fee => field TransactionKernel.lockHeight
      readU64_spec fun lockHeight => field TransactionKernel.excess
      readCommitment_spec fun excess => field TransactionKernel.excessSignature
      (readArray_spec 65) fun sig => record fun kernel => ?_) fun kernel bs => ?_
    · simp [TransactionKernel.ext_iff, and_assoc]
    · simp [Valid]
  min_le_length kernel _ := by simp [encode, DomDeserialize.minSerializedSize]
  length_le_max kernel _ := by simp [encode]

/-- Coinbase kernel, with the total coinbase value in the clear. -/
@[ext] structure CoinbaseKernel where
  features : UInt8
  explicitValue : UInt64
  excess : Commitment
  excessSignature : Octets 65
  deriving DecidableEq

instance : DomSerialize CoinbaseKernel where
  serialize kernel w := do
    let w := w.writeU8 kernel.features
    let w := w.writeU64 kernel.explicitValue
    let w := w.writeBytes kernel.excess.bytes.toList
    let w := w.writeBytes kernel.excessSignature.toList
    pure w

instance : DomDeserialize CoinbaseKernel where
  minSerializedSize := 1 + 8 + 33 + 65
  deserialize := do
    let features ← readCoinbaseFeatures
    let explicitValue ← readU64
    let excess ← readCommitment
    let excessSignature ← readArray 65
    pure ⟨features, explicitValue, excess, excessSignature⟩

instance : WireFormat CoinbaseKernel where
  Writable _ := True
  Valid kernel := kernel.features = kernelFeatCoinbase
  encode kernel := [kernel.features] ++ (leBytes 8 kernel.explicitValue.toNat ++
    (kernel.excess.bytes.toList ++ kernel.excessSignature.toList))
  maxSize := 1 + 8 + 33 + 65
  writable_of_valid _ _ := trivial
  serialize_spec kernel := Writes.of_ok fun w => by
    simp [serialize, Writer.writeU8, Writer.writeU64, Writer.writeBytes, Pure.pure, Except.pure]
  prefixCode a b s t _ _ h := by
    simp only [List.append_assoc, List.cons_append, List.nil_append, List.cons.injEq] at h
    obtain ⟨hfeatures, h⟩ := h
    obtain ⟨hvalue, h⟩ := u64_prefixCode trivial trivial h
    obtain ⟨hexcess, h⟩ := commitment_prefixCode trivial trivial h
    obtain ⟨hsig, hst⟩ := octets_prefixCode trivial trivial h
    exact ⟨CoinbaseKernel.ext hfeatures hvalue hexcess hsig, hst⟩
  deserialize_spec := by
    refine congr (field (P := fun _ => True) CoinbaseKernel.features
      readCoinbaseFeatures_spec fun features => field CoinbaseKernel.explicitValue
      readU64_spec fun value => field CoinbaseKernel.excess
      readCommitment_spec fun excess => field CoinbaseKernel.excessSignature
      (readArray_spec 65) fun sig => record fun kernel => ?_) fun kernel bs => ?_
    · simp [CoinbaseKernel.ext_iff, and_assoc]
    · simp
  min_le_length kernel _ := by simp [DomDeserialize.minSerializedSize]
  length_le_max kernel _ := by simp

/-- A complete non-coinbase transaction. -/
@[ext] structure Transaction where
  inputs : List TransactionInput
  outputs : List TransactionOutput
  kernels : List TransactionKernel
  offset : Octets 32
  deriving DecidableEq

instance : DomSerialize Transaction where
  serialize tx w := do
    let w ← w.writeList tx.inputs
    let w ← w.writeList tx.outputs
    let w ← w.writeList tx.kernels
    pure (w.writeBytes tx.offset.toList)

instance : DomDeserialize Transaction where
  minSerializedSize := 4 + 4 + 4 + 32
  deserialize := do
    let inputs ← readList TransactionInput maxInputsPerTx
    let outputs ← readList TransactionOutput maxOutputsPerTx
    let kernels ← readList TransactionKernel maxKernelsPerTx
    let offset ← readArray 32
    pure ⟨inputs, outputs, kernels, offset⟩

/-- **A transaction within the decoder's limits.** -/
structure Transaction.WithinLimits (tx : Transaction) : Prop where
  inputs : tx.inputs.length ≤ maxInputsPerTx
  outputs : tx.outputs.length ≤ maxOutputsPerTx
  kernels : tx.kernels.length ≤ maxKernelsPerTx
  proofs : ∀ output ∈ tx.outputs, output.proof.length ≤ maxOutputProofEnvelopeSize

instance : WireFormat Transaction where
  Writable tx := ListWritable tx.inputs ∧ ListWritable tx.outputs ∧ ListWritable tx.kernels ∧ True
  Valid := Transaction.WithinLimits
  encode tx := listBytes tx.inputs ++ (listBytes tx.outputs ++ (listBytes tx.kernels ++
    tx.offset.toList))
  maxSize := (4 + maxInputsPerTx * 33) + ((4 + maxOutputsPerTx *
    (33 + (4 + maxOutputProofEnvelopeSize))) + ((4 + maxKernelsPerTx * 115) + 32))
  writable_of_valid _ valid :=
    ⟨⟨valid.inputs.trans_lt (by decide), fun _ _ => trivial⟩,
      ⟨valid.outputs.trans_lt (by decide), fun output houtput =>
        writable_of_valid output (valid.proofs output houtput)⟩,
      ⟨valid.kernels.trans_lt (by decide), fun _ _ => trivial⟩, trivial⟩
  serialize_spec tx := (Writer.writeList_spec tx.inputs).bind ((Writer.writeList_spec tx.outputs).bind
    ((Writer.writeList_spec tx.kernels).bind (Writes.of_ok fun _ => rfl)))
  prefixCode a b s t ha hb h := by
    simp only [List.append_assoc] at h
    obtain ⟨hinputs, h⟩ := listBytes_prefixCode ha.1 hb.1 h
    obtain ⟨houtputs, h⟩ := listBytes_prefixCode ha.2.1 hb.2.1 h
    obtain ⟨hkernels, h⟩ := listBytes_prefixCode ha.2.2.1 hb.2.2.1 h
    obtain ⟨hoffset, hst⟩ := octets_prefixCode trivial trivial h
    exact ⟨Transaction.ext hinputs houtputs hkernels hoffset, hst⟩
  deserialize_spec := by
    refine congr (field (P := fun _ => True) Transaction.inputs
      (readList_spec 33 rfl (by decide) (by decide) (by decide)) fun inputs =>
      field Transaction.outputs
      (readList_spec 37 rfl (by decide) (by decide) (by decide)) fun outputs =>
      field Transaction.kernels
      (readList_spec 115 rfl (by decide) (by decide) (by decide)) fun kernels =>
      field Transaction.offset (readArray_spec 32) fun offset =>
      record fun tx => ?_) fun tx bs => ?_
    · simp [Transaction.ext_iff, and_assoc]
    · simp only [true_and, and_true, List.append_nil]
      refine and_congr_left' ⟨?_, ?_⟩
      · rintro ⟨⟨hinputs, -⟩, ⟨houtputs, hproofs⟩, hkernels, -⟩
        exact ⟨hinputs, houtputs, hkernels, hproofs⟩
      · rintro ⟨hinputs, houtputs, hkernels, hproofs⟩
        exact ⟨⟨hinputs, fun _ _ => trivial⟩, ⟨houtputs, hproofs⟩, hkernels, fun _ _ => trivial⟩
  min_le_length tx _ := by
    simp only [listBytes, List.length_append, length_leBytes, Octets.length_toList]
    show 4 + 4 + 4 + 32 ≤ _
    omega
  length_le_max tx valid := by
    have hinputs := length_listBytes_le valid.inputs fun _ _ => trivial
    have houtputs := length_listBytes_le valid.outputs valid.proofs
    have hkernels := length_listBytes_le valid.kernels fun _ _ => trivial
    rw [List.length_append, List.length_append, List.length_append, Octets.length_toList]
    exact Nat.add_le_add hinputs (Nat.add_le_add houtputs (Nat.add_le_add hkernels le_rfl))

/-- Coinbase transaction. -/
@[ext] structure CoinbaseTransaction where
  output : TransactionOutput
  kernel : CoinbaseKernel
  offset : Octets 32
  deriving DecidableEq

instance : DomSerialize CoinbaseTransaction where
  serialize coinbase w := do
    let w ← serialize coinbase.output w
    let w ← serialize coinbase.kernel w
    pure (w.writeBytes coinbase.offset.toList)

instance : DomDeserialize CoinbaseTransaction where
  minSerializedSize := (33 + 4) + (1 + 8 + 33 + 65) + 32
  deserialize := do
    let output ← deserialize
    let kernel ← deserialize
    let offset ← readArray 32
    pure ⟨output, kernel, offset⟩

/-- **A coinbase transaction within the decoder's limits.** -/
structure CoinbaseTransaction.WithinLimits (coinbase : CoinbaseTransaction) : Prop where
  proof : coinbase.output.proof.length ≤ maxOutputProofEnvelopeSize
  features : coinbase.kernel.features = kernelFeatCoinbase

instance : WireFormat CoinbaseTransaction where
  Writable coinbase := Writable coinbase.output ∧
    Writable coinbase.kernel ∧ True
  Valid := CoinbaseTransaction.WithinLimits
  encode coinbase := encode coinbase.output ++ (encode coinbase.kernel ++ coinbase.offset.toList)
  maxSize := (33 + (4 + maxOutputProofEnvelopeSize)) + ((1 + 8 + 33 + 65) + 32)
  writable_of_valid _ valid :=
    ⟨writable_of_valid _ valid.proof, writable_of_valid _ valid.features,
      trivial⟩
  serialize_spec coinbase := (serialize_spec coinbase.output).bind
    ((serialize_spec coinbase.kernel).bind (Writes.of_ok fun _ => rfl))
  prefixCode a b s t ha hb h := by
    simp only [List.append_assoc] at h
    obtain ⟨houtput, h⟩ := prefixCode ha.1 hb.1 h
    obtain ⟨hkernel, h⟩ := prefixCode ha.2.1 hb.2.1 h
    obtain ⟨hoffset, hst⟩ := octets_prefixCode trivial trivial h
    exact ⟨CoinbaseTransaction.ext houtput hkernel hoffset, hst⟩
  deserialize_spec := by
    refine congr (field (P := fun _ => True) CoinbaseTransaction.output
      deserialize_spec fun output => field CoinbaseTransaction.kernel
      deserialize_spec fun kernel => field CoinbaseTransaction.offset
      (readArray_spec 32) fun offset => record fun coinbase => ?_)
      fun coinbase bs => ?_
    · simp [CoinbaseTransaction.ext_iff, and_assoc]
    · simp only [true_and, and_true, List.append_nil]
      exact and_congr_left' ⟨fun h => ⟨h.1, h.2⟩, fun h => ⟨h.proof, h.features⟩⟩
  min_le_length coinbase valid := by
    have houtput := min_le_length coinbase.output valid.proof
    have hkernel := min_le_length coinbase.kernel valid.features
    rw [List.length_append, List.length_append, Octets.length_toList]
    exact (Nat.add_le_add (Nat.add_le_add houtput hkernel) le_rfl).trans_eq (Nat.add_assoc ..)
  length_le_max coinbase valid := by
    have houtput := length_le_max coinbase.output valid.proof
    have hkernel := length_le_max coinbase.kernel valid.features
    rw [List.length_append, List.length_append, Octets.length_toList]
    exact Nat.add_le_add houtput (Nat.add_le_add hkernel le_rfl)

/-! ## Headers and blocks -/

/-- Proof of work attached to a header. -/
@[ext] structure ProofOfWork where
  nonce : UInt64
  randomxHash : Hash256
  deriving DecidableEq

instance : DomSerialize ProofOfWork where
  serialize pow w := do
    let w := w.writeU64 pow.nonce
    serialize pow.randomxHash w

instance : DomDeserialize ProofOfWork where
  minSerializedSize := 8 + 32
  deserialize := do
    let nonce ← readU64
    let randomxHash ← deserialize
    pure ⟨nonce, randomxHash⟩

instance : WireFormat ProofOfWork where
  Writable _ := True
  Valid _ := True
  encode pow := leBytes 8 pow.nonce.toNat ++ encode pow.randomxHash
  maxSize := 8 + 32
  writable_of_valid _ _ := trivial
  serialize_spec pow := Writes.of_ok fun w => by
    simp [serialize, encode, Writer.writeU64, Writer.writeBytes]
  prefixCode a b s t _ _ h := by
    simp only [List.append_assoc] at h
    obtain ⟨hnonce, h⟩ := u64_prefixCode trivial trivial h
    obtain ⟨hhash, hst⟩ := prefixCode trivial trivial h
    exact ⟨ProofOfWork.ext hnonce hhash, hst⟩
  deserialize_spec := by
    refine congr (field (P := fun _ => True) ProofOfWork.nonce
      readU64_spec fun nonce => field ProofOfWork.randomxHash
      deserialize_spec fun hash => record fun pow => ?_) fun pow bs => ?_
    · simp [ProofOfWork.ext_iff]
    · simp [Valid]
  min_le_length _ _ := by simp [encode, DomDeserialize.minSerializedSize]
  length_le_max _ _ := by simp [encode]

/-- Block header, fields in wire order. -/
@[ext] structure BlockHeader where
  version : UInt32
  height : BlockHeight
  prevHash : Hash256
  timestamp : Timestamp
  outputRoot : Hash256
  kernelRoot : Hash256
  rangeproofRoot : Hash256
  totalKernelOffset : Octets 32
  target : CompactTarget
  totalDifficulty : U256
  pow : ProofOfWork
  deriving DecidableEq

instance : DomSerialize BlockHeader where
  serialize header w := do
    let w := w.writeU32 header.version
    let w ← serialize header.height w
    let w ← serialize header.prevHash w
    let w ← serialize header.timestamp w
    let w ← serialize header.outputRoot w
    let w ← serialize header.kernelRoot w
    let w ← serialize header.rangeproofRoot w
    let w := w.writeBytes header.totalKernelOffset.toList
    let w ← serialize header.target w
    -- the accumulated difficulty is written as 32 octets, big-endian
    let w := w.writeBytes (Octets.toList header.totalDifficulty)
    serialize header.pow w

instance : DomDeserialize BlockHeader where
  minSerializedSize := 4 + 8 + 32 + 8 + 32 + 32 + 32 + 32 + 4 + 32 + 40
  deserialize := do
    let version ← Reader.readU32
    let height ← deserialize
    let prevHash ← deserialize
    let timestamp ← deserialize
    let outputRoot ← deserialize
    let kernelRoot ← deserialize
    let rangeproofRoot ← deserialize
    let totalKernelOffset ← readArray 32
    let target ← deserialize
    let totalDifficulty ← readArray 32
    let pow ← deserialize
    pure ⟨version, height, prevHash, timestamp, outputRoot, kernelRoot, rangeproofRoot,
      totalKernelOffset, target, totalDifficulty, pow⟩

instance : WireFormat BlockHeader where
  Writable _ := True
  Valid _ := True
  encode header := leBytes 4 header.version.toNat ++ (encode header.height ++
    (encode header.prevHash ++ (encode header.timestamp ++ (encode header.outputRoot ++
    (encode header.kernelRoot ++ (encode header.rangeproofRoot ++
    (header.totalKernelOffset.toList ++ (encode header.target ++
    (Octets.toList header.totalDifficulty ++ encode header.pow)))))))))
  maxSize := 256
  writable_of_valid _ _ := trivial
  serialize_spec header := Writes.of_ok fun w => by
    simp [serialize, encode, Writer.writeU32, Writer.writeU64, Writer.writeBytes]
  prefixCode a b s t _ _ h := by
    simp only [List.append_assoc] at h
    obtain ⟨hversion, h⟩ := u32_prefixCode trivial trivial h
    obtain ⟨hheight, h⟩ := prefixCode trivial trivial h
    obtain ⟨hprev, h⟩ := prefixCode trivial trivial h
    obtain ⟨htime, h⟩ := prefixCode trivial trivial h
    obtain ⟨houtput, h⟩ := prefixCode trivial trivial h
    obtain ⟨hkernel, h⟩ := prefixCode trivial trivial h
    obtain ⟨hproof, h⟩ := prefixCode trivial trivial h
    obtain ⟨hoffset, h⟩ := octets_prefixCode trivial trivial h
    obtain ⟨htarget, h⟩ := prefixCode trivial trivial h
    obtain ⟨hdifficulty, h⟩ := octets_prefixCode trivial trivial h
    obtain ⟨hpow, hst⟩ := prefixCode trivial trivial h
    exact ⟨BlockHeader.ext hversion hheight hprev htime houtput hkernel hproof hoffset htarget
      hdifficulty hpow, hst⟩
  deserialize_spec := by
    refine congr (field (P := fun _ => True) BlockHeader.version
      Reader.readU32_spec fun _ => field BlockHeader.height
      deserialize_spec fun _ => field BlockHeader.prevHash
      deserialize_spec fun _ => field BlockHeader.timestamp
      deserialize_spec fun _ => field BlockHeader.outputRoot
      deserialize_spec fun _ => field BlockHeader.kernelRoot
      deserialize_spec fun _ => field BlockHeader.rangeproofRoot
      deserialize_spec fun _ => field BlockHeader.totalKernelOffset
      (readArray_spec 32) fun _ => field BlockHeader.target
      deserialize_spec fun _ => field BlockHeader.totalDifficulty
      (readArray_spec 32) fun _ => field BlockHeader.pow
      deserialize_spec fun _ => record fun header => ?_) fun header bs => ?_
    · simp [BlockHeader.ext_iff, and_assoc]
    · simp [Valid]
  min_le_length _ _ := by simp [encode, DomDeserialize.minSerializedSize]
  length_le_max _ _ := by simp [encode]

/-- The octets hashed for proof of work. -/
def BlockHeader.powPreimage (header : BlockHeader) : Bytes :=
  leBytes 4 header.version.toNat ++ header.prevHash.toList ++ leBytes 8 header.height.toNat ++
    leBytes 8 header.timestamp.toNat ++ header.outputRoot.toList ++ header.kernelRoot.toList ++
    header.rangeproofRoot.toList ++ header.totalKernelOffset.toList ++
    leBytes 4 header.target.toNat ++ Octets.toList header.totalDifficulty ++
    leBytes 8 header.pow.nonce.toNat

/-- A block: header, coinbase and transactions. -/
@[ext] structure Block where
  header : BlockHeader
  coinbase : CoinbaseTransaction
  transactions : List Transaction
  deriving DecidableEq

instance : DomSerialize Block where
  serialize block w := do
    let w ← serialize block.header w
    let w ← serialize block.coinbase w
    w.writeList block.transactions

instance : DomDeserialize Block where
  minSerializedSize := 256 + 176 + 4
  deserialize := do
    let header ← deserialize
    let coinbase ← deserialize
    let transactions ← readList Transaction maxBlockTxs
    pure ⟨header, coinbase, transactions⟩

/-- **A block within the decoder's limits.** -/
structure Block.WithinLimits (block : Block) : Prop where
  coinbase : block.coinbase.WithinLimits
  count : block.transactions.length ≤ maxBlockTxs
  transactions : ∀ tx ∈ block.transactions, tx.WithinLimits

instance : WireFormat Block where
  Writable block := Writable block.header ∧ Writable block.coinbase ∧
    ListWritable block.transactions
  Valid := Block.WithinLimits
  encode block := encode block.header ++ (encode block.coinbase ++ listBytes block.transactions)
  maxSize := maxSize BlockHeader + (maxSize CoinbaseTransaction +
    (4 + maxBlockTxs * maxSize Transaction))
  writable_of_valid _ valid :=
    ⟨trivial, writable_of_valid _ valid.coinbase, valid.count.trans_lt (by decide),
      fun tx htx => writable_of_valid tx (valid.transactions tx htx)⟩
  serialize_spec block := (serialize_spec block.header).bind
    ((serialize_spec block.coinbase).bind (Writer.writeList_spec block.transactions))
  prefixCode a b s t ha hb h := by
    simp only [List.append_assoc] at h
    obtain ⟨hheader, h⟩ := prefixCode trivial trivial h
    obtain ⟨hcoinbase, h⟩ := prefixCode ha.2.1 hb.2.1 h
    obtain ⟨htxs, hst⟩ := listBytes_prefixCode ha.2.2 hb.2.2 h
    exact ⟨Block.ext hheader hcoinbase htxs, hst⟩
  deserialize_spec := by
    refine congr (field (P := fun _ => True) Block.header
      deserialize_spec fun _ => field Block.coinbase
      deserialize_spec fun _ => field Block.transactions
      (readList_spec 44 rfl (by decide) (by decide) (by decide)) fun _ =>
      record fun block => ?_) fun block bs => ?_
    · simp [Block.ext_iff, and_assoc]
    · simp only [true_and, and_true, List.append_nil]
      refine and_congr_left' ⟨?_, ?_⟩
      · rintro ⟨-, hcoinbase, hcount, htxs⟩
        exact ⟨hcoinbase, hcount, htxs⟩
      · rintro ⟨hcoinbase, hcount, htxs⟩
        exact ⟨trivial, hcoinbase, hcount, htxs⟩
  min_le_length block valid := by
    have hheader := min_le_length block.header trivial
    have hcoinbase := min_le_length block.coinbase valid.coinbase
    simp only [listBytes, List.length_append, length_leBytes]
    simp only [DomDeserialize.minSerializedSize] at *
    omega
  length_le_max block valid := by
    have hheader := length_le_max block.header trivial
    have hcoinbase := length_le_max block.coinbase valid.coinbase
    have htxs := length_listBytes_le valid.count valid.transactions
    rw [List.length_append, List.length_append]
    exact Nat.add_le_add hheader (Nat.add_le_add hcoinbase htxs)

end DomProtocol
