import DomProtocol.Serialization

/-! # Cryptographic layer (`dom-crypto`)

The protocol computes with a curve group, a hash function, a range-proof verifier and a memory-hard
hash that come from third-party libraries. They are the fields of the class **`Primitives`**, and
everything below is a function of them: tagged hashing, Pedersen **`Commitment`**s, Schnorr
signatures, bounded range proofs and the two balance equations.

A `Commitment` carries the fact that its octets encode a curve point, so it has a point
(`Commitment.point`) without a further check. -/

namespace DomProtocol

/-- **Third-party primitives** the protocol is built on. Curve points form a commutative group;
`n • P` is scalar multiplication. -/
class Primitives where
  blake2b256 : Bytes → Hash256
  Point : Type
  [pointGroup : AddCommGroup Point]
  [pointDecidableEq : DecidableEq Point]
  generator : Point
  hPoint : Point
  isSec1Encoding : Octets 33 → Bool
  affineFromEncoded : Octets 33 → Option Point
  compress : Point → Octets 33
  isPublicKey : Octets 33 → Bool
  proofHasValidCurvePoints : Bytes → Bool
  bulletproofVerify : Octets 33 → Octets 33 → Bytes → Bytes → Result Bool
  proveRangeWithNonce : UInt64 → Octets 32 → Hash256 → Result (Bytes × Octets 33)
  schnorrSign : Octets 32 → Bytes → Hash256 → Result (Octets 65)
  randomxHash : Hash256 → Bytes → Result Hash256
  fastRegtestMiningRequested : Bool

variable [Primitives]

open Primitives

instance : AddCommGroup Point := pointGroup

instance : DecidableEq Point := pointDecidableEq

/-! ## Hashing -/

/-- The octets of a domain-separation tag. -/
def tagOctets (tag : String) : Bytes := tag.toUTF8.data.toList

/-- The string the tagged hash feeds to Blake2b: tag length, tag, data. -/
def taggedPreimage (tag : String) (data : Bytes) : Bytes :=
  leBytes 2 (tagOctets tag).length ++ tagOctets tag ++ data

/-- Tagged Blake2b-256. -/
def blake2b256Tagged (tag : String) (data : Bytes) : Hash256 :=
  blake2b256 (taggedPreimage tag data)

/-! ## Commitments -/

/-- **A Pedersen commitment**: 33 octets that encode a curve point. -/
@[ext] structure Commitment where
  bytes : Octets 33
  encoded : isSec1Encoding bytes = true
  onCurve : (affineFromEncoded bytes).isSome = true
  deriving DecidableEq

namespace Commitment

/-- Parse a commitment from its 33 octets. -/
def fromCompressedBytes (bytes : Octets 33) : Result Commitment :=
  if encoded : isSec1Encoding bytes = true then
    if onCurve : (affineFromEncoded bytes).isSome = true then .ok ⟨bytes, encoded, onCurve⟩
    else .error (.invalid "commitment: point not on secp256k1 curve")
  else .error (.invalid "commitment: invalid SEC1 encoding")

/-- A commitment decodes from its octets only. -/
theorem fromCompressedBytes_eq_ok {bytes : Octets 33} {c : Commitment} :
    fromCompressedBytes bytes = .ok c ↔ c.bytes = bytes := by
  unfold fromCompressedBytes
  constructor
  · intro h
    split at h
    · split at h
      · cases h
        rfl
      · cases h
    · cases h
  · rintro rfl
    rw [dif_pos c.encoded, dif_pos c.onCurve]

/-- The curve point of a commitment. -/
def point (c : Commitment) : Point := (affineFromEncoded c.bytes).get c.onCurve

/-- The curve point of a commitment, with the checks the source repeats. -/
def toProjective (c : Commitment) : Result Point := do
  rejectIf (isSec1Encoding c.bytes = false) (.invalid "invalid commitment encoding")
  okOr (.invalid "commitment point not on curve") (affineFromEncoded c.bytes)

end Commitment

/-- Sum of the points of a list of commitments. -/
def sumProjective (commits : List Commitment) : Result Point :=
  commits.foldlM (fun acc c => do let p ← c.toProjective; pure (acc + p)) 0

/-! ## Scalars -/

/-- Order of the secp256k1 group. -/
def secp256k1N : Nat := 0xFFFFFFFFFFFFFFFFFFFFFFFFFFFFFFFEBAAEDCE6AF48A03BBFD25E8CD0364141

/-- A scalar from its 32 big-endian octets, if canonical. -/
def scalarFromBytes (bytes : Octets 32) : Option Nat :=
  if bytes.toNat < secp256k1N then some bytes.toNat else none

/-- Whether 32 big-endian octets are a nonzero canonical scalar. -/
def isScalarValid (bytes : Octets 32) : Bool :=
  bytes ≠ 0 && bytes.toNat < secp256k1N

/-- Commit to a value under a blinding factor. -/
def Commitment.commit (value : UInt64) (blinding : Octets 32) : Result Commitment :=
  Commitment.fromCompressedBytes
    (compress (value.toNat • hPoint + blinding.toNat • generator))

/-! ## Balance equations -/

/-- Add a value term, unless the value is zero. -/
def addValue (p : Point) (value : UInt64) : Point :=
  if value > 0 then p + value.toNat • hPoint else p

/-- Add an offset term, unless the offset is zero. -/
def addOffset (p : Point) (offset : Octets 32) (message : String) : Result Point :=
  if offset ≠ 0 then do
    let s ← okOr (.invalid message) (scalarFromBytes offset)
    pure (p + s • generator)
  else pure p

/-- Sum of outputs minus sum of inputs plus the fee equals the sum of kernel excesses plus the
offset: the balance equation of one transaction. -/
def verifyBalanceEquation (outputCommits inputCommits kernelExcesses : List Commitment)
    (offset : Octets 32) (totalFee : UInt64) : Result Bool := do
  let sumOutputs ← sumProjective outputCommits
  let sumInputs ← sumProjective inputCommits
  let lhs := addValue (sumOutputs - sumInputs) totalFee
  let rhs ← sumProjective kernelExcesses
  let rhs ← addOffset rhs offset "invalid offset scalar"
  pure (decide (lhs = rhs))

/-- The aggregate balance equation of a block; fees cancel, so only the base reward is minted. -/
def verifyBlockBalanceEquation (allOutputs allInputs allExcesses : List Commitment)
    (kernelOffset : Octets 32) (reward : UInt64) : Result Bool := do
  let sumOutputs ← sumProjective allOutputs
  let sumInputs ← sumProjective allInputs
  let lhs := sumOutputs - sumInputs
  let rhs ← sumProjective allExcesses
  let rhs ← addOffset rhs kernelOffset "invalid block kernel_offset scalar"
  pure (decide (lhs = addValue rhs reward))

/-- Sum of the points of commitments. -/
def pointSum (commits : List Commitment) : Point := (commits.map Commitment.point).sum

/-- One more commitment. -/
theorem pointSum_cons (c : Commitment) (commits : List Commitment) :
    pointSum (c :: commits) = c.point + pointSum commits := List.sum_cons

/-- Sums of two lists add up. -/
theorem pointSum_append (left right : List Commitment) :
    pointSum (left ++ right) = pointSum left + pointSum right := by
  rw [pointSum, List.map_append, List.sum_append]
  rfl

/-- The fold computes the sum. -/
theorem sumProjective_eq (commits : List Commitment) :
    sumProjective commits = .ok (pointSum commits) := by
  have hpoint : ∀ c : Commitment, c.toProjective = .ok c.point := by
    intro c
    rw [Commitment.toProjective, rejectIf_of_not _ (by simp [c.encoded]), ok_bind, okOr_eq_ok,
      Commitment.point, Option.some_get]
  have hloop : ∀ start, commits.foldlM (fun acc c => do let p ← c.toProjective; pure (acc + p))
      start = (.ok (start + pointSum commits) : Result Point) := by
    induction commits with
    | nil => simp [pointSum, Pure.pure, Except.pure]
    | cons c commits ih =>
      intro start
      rw [List.foldlM_cons, hpoint, ok_bind, pointSum_cons, ← add_assoc]
      exact ih _
  rw [sumProjective, hloop, zero_add]

/-- A value is added on the second generator. -/
theorem addValue_eq (p : Point) (value : UInt64) : addValue p value = p + value.toNat • hPoint := by
  unfold addValue
  split_ifs with h
  · rfl
  · obtain rfl : value = 0 := by simpa using h
    simp

/-- An offset below the order is added on the first. -/
theorem addOffset_eq_ok {p q : Point} {offset : Octets 32} {message : String} :
    addOffset p offset message = .ok q ↔
      offset.toNat < secp256k1N ∧ p + offset.toNat • generator = q := by
  unfold addOffset
  split_ifs with h
  · simp only [bind_eq_ok, okOr_eq_ok, scalarFromBytes, Option.ite_none_right_eq_some,
      Option.some.injEq, pure_eq_ok]
    exact ⟨fun ⟨_, ⟨hs, rfl⟩, hq⟩ => ⟨hs, hq⟩, fun ⟨hs, hq⟩ => ⟨_, ⟨hs, rfl⟩, hq⟩⟩
  · obtain rfl := not_not.mp h
    simp [pure_eq_ok, secp256k1N]

/-! ## Range proofs -/

/-- Greatest value a range proof covers. -/
def maxProvableValue : UInt64 := 2 ^ 52 - 1

/-- Exact size of a range proof. -/
def rangeProofSize : Nat := 739

/-- The complement `maxValue·H − C` of a commitment, in compressed form. -/
def deriveComplementCommitment (c : Commitment) (maxValue : UInt64) : Result (Octets 33) := do
  let p ← c.toProjective
  let diff := maxValue.toNat • hPoint - p
  rejectIf (diff = 0) (.invalid "commitment subtraction produced the identity point")
  pure (compress diff)

/-- Verify a bounded range proof. -/
def rangeProofVerify (commitment : Octets 33) (proof : Bytes) : Result Bool := do
  rejectIf (proof = []) (.malformed "range proof is empty")
  rejectIf (proof.length ≠ rangeProofSize) (.malformed
    s!"invalid range proof length: {proof.length} bytes (expected {rangeProofSize})")
  if proofHasValidCurvePoints proof then
    let c ← Commitment.fromCompressedBytes commitment
    let complement ← deriveComplementCommitment c maxProvableValue
    bulletproofVerify commitment complement proof []
  else pure false

/-- Verify a bounded range proof whose transcript includes `extraCommit`. -/
def rangeProofVerifyWithExtraCommit (commitment : Octets 33) (proof extraCommit : Bytes) :
    Result Bool := do
  rejectIf (extraCommit = []) (.malformed "range proof extra commitment must not be empty")
  rejectIf (proof.length ≠ rangeProofSize) (.malformed
    s!"range proof length {proof.length} != {rangeProofSize}")
  let c ← Commitment.fromCompressedBytes commitment
  let complement ← deriveComplementCommitment c maxProvableValue
  bulletproofVerify commitment complement proof extraCommit

/-! ## Recovery capsules -/

/-- Version of the recovery capsule format. -/
def recoveryCapsuleVersion : Nat := 1

/-- Exact size of the ciphertext in a recovery capsule. -/
def recoveryCiphertextSize : Nat := 80

/-- Parse the public framing of a recovery capsule; the capsule is its octets. -/
def recoveryCapsuleFromBytes (bytes : Bytes) : Result Bytes := do
  let version := if bytes.length ≥ 2 then leNat (bytes.take 2) else 0
  let ciphertextLen := if bytes.length ≥ 16 then leNat ((bytes.drop 14).take 2) else 0
  rejectIf (bytes.length ≠ recoveryCapsuleSize) (.malformed
    s!"recovery capsule length {bytes.length} != {recoveryCapsuleSize}")
  rejectIf (version ≠ recoveryCapsuleVersion) (.malformed
    s!"unsupported recovery capsule version {version}")
  rejectIf (ciphertextLen ≠ recoveryCiphertextSize) (.malformed
    s!"recovery ciphertext length {ciphertextLen} != {recoveryCiphertextSize}")
  pure bytes

/-! ## Schnorr signatures -/

/-- A public key, as its compressed encoding. -/
structure PublicKey where
  bytes : Octets 33
  valid : isPublicKey bytes = true

namespace PublicKey

/-- Parse a public key from its 33 octets; only the compressed encodings are accepted. -/
def fromCompressedBytes (bytes : Octets 33) : Result PublicKey := do
  let first := bytes.toNat / 256 ^ 32
  rejectIf (¬ (first = 2 ∨ first = 3)) (.malformed
    s!"compressed public key prefix must be 0x02 or 0x03, got 0x{hexNat 2 first}")
  if valid : isPublicKey bytes = true then pure ⟨bytes, valid⟩
  else .error (.invalid "invalid public key point: malformed public key")

end PublicKey

/-- A Schnorr signature: the nonce point and the response scalar. -/
structure SchnorrSignature where
  rCompressed : Octets 33
  s : Octets 32

namespace SchnorrSignature

/-- Parse a signature from its 65 octets. -/
def fromBytes (bytes : Octets 65) : Result SchnorrSignature := do
  let rCompressed : Octets 33 := Octets.ofList (bytes.toList.take 33)
  let s : Octets 32 := Octets.ofList (bytes.toList.drop 33)
  let _ ← PublicKey.fromCompressedBytes rCompressed
  rejectIf (isScalarValid s = false) (.invalid "signature scalar s is zero or >= n")
  pure ⟨rCompressed, s⟩

end SchnorrSignature

/-- The point of a compressed encoding. -/
def compressedToProjective (bytes : Octets 33) : Result Point := do
  rejectIf (isSec1Encoding bytes = false) (.invalid "invalid compressed point")
  okOr (.invalid "point not on curve") (affineFromEncoded bytes)

/-- Challenge of a signature, bound to the chain. -/
def schnorrChallenge (rCompressed : Octets 33) (publicKey : PublicKey) (chainId : Hash256)
    (message : Bytes) : Hash256 :=
  blake2b256Tagged tagKernelSig
    (rCompressed.toList ++ publicKey.bytes.toList ++ chainId.toList ++ message)

/-- Verify a Schnorr signature: `s·G = R + c·P`. -/
def schnorrVerify (sig : SchnorrSignature) (publicKey : PublicKey) (chainId : Hash256)
    (message : Bytes) : Result Bool := do
  let challenge := schnorrChallenge sig.rCompressed publicKey chainId message
  let s ← okOr (.invalid "s is not a valid scalar") (scalarFromBytes sig.s)
  let p ← compressedToProjective publicKey.bytes
  let c ← okOr (.invalid "challenge scalar invalid") (scalarFromBytes challenge)
  let r ← compressedToProjective sig.rCompressed
  pure (decide (s • generator = r + c • p))

end DomProtocol
