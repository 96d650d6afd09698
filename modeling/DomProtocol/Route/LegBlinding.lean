import DomProtocol.Settlement.Terms
import DomProtocol.Lib.Schnorr

/-! # Per-leg witness blinding (`route-composer`, `leg_blinding.rs`)

The two legs of a blinded route are locked to two points of one curve. Claiming the downstream leg
reveals its witness `w`, and the upstream witness is `w + δ` over the integers, where the **leg
offset** `δ` is a secret of the route. The offset is below `2 ^ 251` and a witness below `2 ^ 252`:
a **`LegOffset`** and a **`LegWitness`** carry these bounds. **`verifyOffsetRelation`** checks a
Schnorr proof that somebody knows a logarithm of the difference of the lock points, of any size.

The curve is the class **`Curve`**, and **`LawfulCurve`** says that its points form a cyclic group
of the order of secp256k1 and that compressed encodings are unique. -/

namespace DomProtocol.Route

open Settlement (Digest32 sec1Tag Blake2b)

open Settlement.Blake2b (blake2b256)

/-! ## The curve -/

/-- The order of the group of secp256k1. -/
def groupOrder : ℕ := 0xFFFFFFFFFFFFFFFFFFFFFFFFFFFFFFFEBAAEDCE6AF48A03BBFD25E8CD0364141

/-- **The third-party curve.** -/
class Curve where
  Point : Type
  [pointGroup : AddCommGroup Point]
  [pointDecidableEq : DecidableEq Point]
  generator : Point
  fromSec1 : Octets 33 → Option Point
  toSec1 : Point → Octets 33

export Curve (Point generator fromSec1 toSec1)

section Curve

variable [Curve]

instance : AddCommGroup Point := Curve.pointGroup

instance : DecidableEq Point := Curve.pointDecidableEq

/-- **The laws of the curve**: the group is cyclic of the known order, and a point other than the
identity has exactly one encoding. -/
class LawfulCurve : Prop where
  generates : Schnorr.Generates (generator : Point) groupOrder
  toSec1_of_fromSec1 : ∀ {encoded : Octets 33} {p : Point}, fromSec1 encoded = some p →
    toSec1 p = encoded ∧ p ≠ 0
  fromSec1_toSec1 : ∀ {p : Point}, p ≠ 0 → fromSec1 (toSec1 p) = some p

/-- The checks `adaptor_address` makes of a compressed adaptor point before it hashes it. -/
def adaptorPoint (encoded : Octets 33) : Option Point :=
  if sec1Tag encoded ≠ 0x02 ∧ sec1Tag encoded ≠ 0x03 then none else fromSec1 encoded

/-- The compressed point of a canonical scalar. -/
def adaptorPointOfScalar (t : Octets 32) : Option (Octets 33) :=
  if groupOrder ≤ t.toNat then none
  else if t.toNat = 0 then none
  else some (toSec1 (t.toNat • generator))

theorem adaptorPointOfScalar_eq_some {t : Octets 32} {encoded : Octets 33} :
    adaptorPointOfScalar t = some encoded ↔
      0 < t.toNat ∧ t.toNat < groupOrder ∧ toSec1 (t.toNat • generator) = encoded := by
  unfold adaptorPointOfScalar
  split
  · constructor
    · simp
    · omega
  · split
    · constructor
      · simp
      · omega
    · simp only [Option.some.injEq]
      exact ⟨fun h => ⟨by omega, by omega, h⟩, fun h => h.2.2⟩

/-- **A scalar opens an encoded point** exactly when its multiple of the generator is that point. -/
theorem adaptorPointOfScalar_eq_iff [LawfulCurve] {t : Octets 32} {encoded : Octets 33} {p : Point}
    (denotes : fromSec1 encoded = some p) :
    adaptorPointOfScalar t = some encoded ↔ t.toNat < groupOrder ∧ t.toNat • generator = p := by
  obtain ⟨unique, nonzero⟩ := LawfulCurve.toSec1_of_fromSec1 denotes
  rw [adaptorPointOfScalar_eq_some]
  constructor
  · rintro ⟨positive, small, same⟩
    refine ⟨small, ?_⟩
    have hne : t.toNat • (generator : Point) ≠ 0 := by
      rw [Ne, LawfulCurve.generates.nsmul_eq_zero_iff small]
      omega
    have decoded := LawfulCurve.fromSec1_toSec1 hne
    rw [same, denotes, Option.some.injEq] at decoded
    exact decoded.symm
  · rintro ⟨small, rfl⟩
    have positive : t.toNat ≠ 0 := fun zero => nonzero (by rw [zero, zero_nsmul])
    exact ⟨by omega, small, unique⟩

end Curve

/-! ## Offsets and witnesses -/

/-- Refusals of the blinding module. -/
inductive LegBlindingError where
  | range
  | translationOverflow
  | relationProof
  deriving DecidableEq

/-- **One leg's private witness**: a nonzero number below `2 ^ 252`. -/
@[ext] structure LegWitness where
  bytes : Octets 32
  pos : 0 < bytes.toNat
  lt : bytes.toNat < 2 ^ 252

/-- **The secret leg offset**: a nonzero number below `2 ^ 251`. -/
structure LegOffset where
  bytes : Octets 32
  pos : 0 < bytes.toNat
  lt : bytes.toNat < 2 ^ 251

/-- Whether a value is nonzero and below `2 ^ 251`. -/
def inAdmissibleRange (octets : Octets 32) : Bool :=
  octets.toList.headD 0 < 0x08 && octets ≠ 0

theorem headD_lt_iff {octets : Octets 32} {bound : UInt8} :
    octets.toList.headD 0 < bound ↔ octets.toNat < bound.toNat * 256 ^ 31 := by
  rw [UInt8.lt_iff_toNat_lt, Octets.toNat_headD_toList, Nat.div_lt_iff_lt_mul (by positivity)]

theorem inAdmissibleRange_iff {octets : Octets 32} :
    inAdmissibleRange octets = true ↔ 0 < octets.toNat ∧ octets.toNat < 2 ^ 251 := by
  rw [inAdmissibleRange, Bool.and_eq_true, decide_eq_true_iff, decide_eq_true_iff, headD_lt_iff,
    and_comm, Nat.pos_iff_ne_zero]
  refine and_congr (not_congr ?_) ?_
  · rw [← BitVec.toNat_inj]
    simp
  · rw [show (0x08 : UInt8).toNat * 256 ^ 31 = 2 ^ 251 by decide]

section Derive

variable [Blake2b]

/-- The candidate of one counter: the hash with its five most significant bits cleared. -/
def candidateScalar (domain : Bytes) (routeSeed : Octets 32) (context : Bytes) (counter : Nat) :
    Octets 32 :=
  blake2b256 (domain ++ routeSeed.toList ++ [UInt8.ofNat context.length] ++ context ++
    [UInt8.ofNat counter]) &&& BitVec.ofNat 256 (2 ^ 251 - 1)

/-- The first admissible candidate of eight counters. -/
def deriveBoundedScalar (domain : Bytes) (routeSeed : Octets 32) (context : Bytes) :
    Except LegBlindingError (Octets 32) :=
  okOr .range (((List.range 8).map (candidateScalar domain routeSeed context)).find?
    inAdmissibleRange)

theorem deriveBoundedScalar_range {domain context : Bytes} {routeSeed scalar : Octets 32}
    (derived : deriveBoundedScalar domain routeSeed context = .ok scalar) :
    0 < scalar.toNat ∧ scalar.toNat < 2 ^ 251 :=
  inAdmissibleRange_iff.mp (List.find?_some (okOr_eq_ok.mp derived))

/-- **The secret leg offset** of an ordered pair of legs of a route. -/
def deriveLegOffset (routeSeed routeId : Octets 32) (fromLeg toLeg : UInt8) :
    Except LegBlindingError LegOffset :=
  match derived : deriveBoundedScalar (utf8 "DOM-INTEROP/ROUTE-COMPOSER/LEG-OFFSET-DERIVE/V1\x00")
      routeSeed (routeId.toList ++ [fromLeg, toLeg]) with
  | .error e => .error e
  | .ok bytes => .ok ⟨bytes, (deriveBoundedScalar_range derived).1,
      (deriveBoundedScalar_range derived).2⟩

/-- **One leg's own witness** for a route. -/
def deriveLegWitness (routeSeed routeId : Octets 32) (leg : UInt8) :
    Except LegBlindingError LegWitness :=
  match derived : deriveBoundedScalar (utf8 "DOM-INTEROP/ROUTE-COMPOSER/LEG-WITNESS-DERIVE/V1\x00")
      routeSeed (routeId.toList ++ [leg]) with
  | .error e => .error e
  | .ok bytes => .ok ⟨bytes, (deriveBoundedScalar_range derived).1,
      (deriveBoundedScalar_range derived).2.trans (by norm_num)⟩

/-- A derived witness leaves room for an offset. -/
theorem deriveLegWitness_lt {routeSeed routeId : Octets 32} {leg : UInt8} {witness : LegWitness}
    (derived : deriveLegWitness routeSeed routeId leg = .ok witness) :
    witness.bytes.toNat < 2 ^ 251 := by
  unfold deriveLegWitness at derived
  split at derived
  · cases derived
  · cases derived
    exact (deriveBoundedScalar_range ‹_›).2

end Derive

/-- Addition of 256-bit numbers octet by octet, with the carry out. -/
def addBe256 (a b : Octets 32) : Octets 32 × Bool :=
  let sum := addCarry a.toList.reverse b.toList.reverse 0
  (Octets.ofList sum.1.reverse, sum.2 ≠ 0)

/-- **The octet-wise sum is the integer sum**, with the carry out above the 256 bits. -/
theorem toNat_addBe256 (a b : Octets 32) :
    ((addBe256 a b).2 = false ↔ a.toNat + b.toNat < 2 ^ 256) ∧
      ((addBe256 a b).2 = false → (addBe256 a b).1.toNat = a.toNat + b.toNat) := by
  have size : a.toList.reverse.length = b.toList.reverse.length := by simp
  have sum := leNat_addCarry size 0
  have length := length_addCarry size 0
  have low := leNat_lt (addCarry a.toList.reverse b.toList.reverse 0).1
  rw [length] at low
  rw [show leNat a.toList.reverse = a.toNat from (Octets.toNat_eq_beNat a).symm,
    show leNat b.toList.reverse = b.toNat from (Octets.toNat_eq_beNat b).symm] at sum
  simp only [List.length_reverse, Octets.length_toList] at sum low
  have written : (addBe256 a b).1.toNat = leNat (addCarry a.toList.reverse b.toList.reverse 0).1 := by
    rw [Octets.toNat_eq_beNat, addBe256, Octets.toList_ofList, beNat, List.reverse_reverse]
    rw [List.length_reverse, length]
    simp
  have carried : (addBe256 a b).2 = decide
      ((addCarry a.toList.reverse b.toList.reverse 0).2 ≠ 0) := rfl
  rw [written, carried, decide_eq_false_iff_not, not_not]
  refine ⟨⟨fun zero => ?_, fun fits => ?_⟩, fun zero => ?_⟩
  · rw [zero] at sum
    omega
  · by_contra carry
    have : 1 ≤ (addCarry a.toList.reverse b.toList.reverse 0).2 := by omega
    have : 256 ^ 32 * 1 ≤ 256 ^ 32 * (addCarry a.toList.reverse b.toList.reverse 0).2 :=
      Nat.mul_le_mul_left _ this
    omega
  · rw [zero] at sum
    omega

/-- The most significant octet of a sum of a witness and an offset says whether it fits. -/
theorem sum_fits_iff (revealed : LegWitness) (offset : LegOffset) :
    (¬ ((addBe256 revealed.bytes offset.bytes).2 = true ∨
        0x10 ≤ (addBe256 revealed.bytes offset.bytes).1.toList.headD 0) ↔
      revealed.bytes.toNat + offset.bytes.toNat < 2 ^ 252) ∧
    (addBe256 revealed.bytes offset.bytes).1.toNat =
      revealed.bytes.toNat + offset.bytes.toNat := by
  obtain ⟨carries, adds⟩ := toNat_addBe256 revealed.bytes offset.bytes
  have noCarry : (addBe256 revealed.bytes offset.bytes).2 = false :=
    carries.mpr (by have := revealed.lt; have := offset.lt; omega)
  refine ⟨?_, adds noCarry⟩
  rw [noCarry, not_or, UInt8.not_le, headD_lt_iff, adds noCarry,
    show (0x10 : UInt8).toNat * 256 ^ 31 = 2 ^ 252 by decide]
  simp

/-- **Translation of a witness** by the offset, over the integers. -/
def translateWitness (revealed : LegWitness) (offset : LegOffset) :
    Except LegBlindingError LegWitness :=
  if overflow : (addBe256 revealed.bytes offset.bytes).2 = true ∨
      0x10 ≤ (addBe256 revealed.bytes offset.bytes).1.toList.headD 0 then
    .error .translationOverflow
  else
    .ok {
      bytes := (addBe256 revealed.bytes offset.bytes).1
      pos := by
        have := revealed.pos
        rw [(sum_fits_iff revealed offset).2]
        omega
      lt := by
        rw [(sum_fits_iff revealed offset).2]
        exact (sum_fits_iff revealed offset).1.mp overflow }

/-- **Translation succeeds exactly when the sum stays below `2 ^ 252`**, and then adds. -/
theorem translateWitness_eq_ok {revealed translated : LegWitness} {offset : LegOffset} :
    translateWitness revealed offset = .ok translated ↔
      revealed.bytes.toNat + offset.bytes.toNat < 2 ^ 252 ∧
        translated.bytes.toNat = revealed.bytes.toNat + offset.bytes.toNat := by
  obtain ⟨fits, adds⟩ := sum_fits_iff revealed offset
  unfold translateWitness
  split
  · rename_i overflow
    constructor
    · intro impossible
      cases impossible
    · exact fun h => absurd (fits.mpr h.1) (not_not.mpr overflow)
  · rename_i inRange
    rw [Except.ok.injEq, LegWitness.ext_iff, ← BitVec.toNat_inj, adds]
    exact ⟨fun h => ⟨fits.mp inRange, h.symm⟩, fun h => h.2.symm⟩

/-! ## The relation proof -/

/-- A Schnorr proof of knowledge of the offset, as it goes over the wire. -/
structure OffsetRelationProof where
  noncePoint : Octets 33
  response : Octets 32
  bindingDigest : Digest32

/-- Wire form of the proof. -/
def OffsetRelationProof.toCanonicalBytes (proof : OffsetRelationProof) : Bytes :=
  proof.noncePoint.toList ++ proof.response.toList ++ proof.bindingDigest.toList

/-- The role byte of the relation in the closed role registry. -/
def roleLegOffsetRelation : UInt8 := 4

section Relation

variable [Blake2b] [Curve]

/-- The challenge of the relation proof, reduced modulo the group order. -/
def relationChallenge (noncePoint relationPoint : Point) (bindingDigest : Digest32) : ℕ :=
  (blake2b256 (utf8 "DOM-INTEROP/ROUTE-COMPOSER/LEG-OFFSET-RELATION/V1\x00" ++
    [roleLegOffsetRelation] ++ (toSec1 noncePoint).toList ++ (toSec1 relationPoint).toList ++
    bindingDigest.toList)).toNat % groupOrder

/-- The proof made from a logarithm of the relation point and a nonce. -/
def relationProofOf (logarithm nonce : ℕ) (bindingDigest : Digest32) : OffsetRelationProof where
  noncePoint := toSec1 (nonce • generator)
  response := BitVec.ofNat 256 (Schnorr.response groupOrder nonce
    (relationChallenge (nonce • generator) (logarithm • generator) bindingDigest) logarithm)
  bindingDigest := bindingDigest

/-- **The verifier of the relation proof.** -/
def verifyOffsetRelation (relationPoint : Point) (proof : OffsetRelationProof)
    (expectedBindingDigest : Digest32) : Except LegBlindingError Unit := do
  rejectIf (proof.bindingDigest ≠ expectedBindingDigest) .relationProof
  let noncePoint ← okOr .relationProof (fromSec1 proof.noncePoint)
  rejectIf (groupOrder ≤ proof.response.toNat) .relationProof
  let challenge := relationChallenge noncePoint relationPoint expectedBindingDigest
  rejectIf (proof.response.toNat • generator ≠ noncePoint + challenge • relationPoint)
    .relationProof

/-- The difference of the two committed lock points, which must not be the identity. -/
def relationPointFromCommittedLegs (toPointSec1 fromPointSec1 : Octets 33) :
    Except LegBlindingError Point := do
  let toPoint ← okOr .relationProof (fromSec1 toPointSec1)
  let fromPoint ← okOr .relationProof (fromSec1 fromPointSec1)
  rejectIf (toPoint - fromPoint = 0) .relationProof
  pure (toPoint - fromPoint)

/-- **A proof convinces whatever the logarithm is**: whoever knows a logarithm of the relation
point, of any size, makes a proof the verifier accepts. -/
theorem verifyOffsetRelation_relationProofOf [LawfulCurve] (logarithm : ℕ) {nonce : ℕ}
    (bindingDigest : Digest32) (positive : 0 < nonce) (small : nonce < groupOrder) :
    verifyOffsetRelation (logarithm • generator)
      (relationProofOf logarithm nonce bindingDigest) bindingDigest = .ok () := by
  have nonceNe : nonce • (generator : Point) ≠ 0 := by
    rw [Ne, LawfulCurve.generates.nsmul_eq_zero_iff small]
    omega
  have responds := Schnorr.nsmul_response LawfulCurve.generates nonce
    (relationChallenge (nonce • (generator : Point)) (logarithm • generator) bindingDigest)
    logarithm
  have fits : ∀ e, Schnorr.response groupOrder nonce e logarithm < groupOrder := fun e =>
    Nat.mod_lt _ LawfulCurve.generates.pos
  have octets : ∀ e, (BitVec.ofNat 256 (Schnorr.response groupOrder nonce e logarithm)).toNat =
      Schnorr.response groupOrder nonce e logarithm := fun e => by
    rw [BitVec.toNat_ofNat, Nat.mod_eq_of_lt ((fits e).trans (by decide))]
  simp only [verifyOffsetRelation, relationProofOf, bind_eq_ok, rejectIf_eq_ok, okOr_eq_ok, not_not,
    not_le, LawfulCurve.fromSec1_toSec1 nonceNe, Option.some.injEq, exists_eq_left', octets]
  exact ⟨(), rejectIf_of_not _ (not_not.mpr rfl), (), fits _, responds⟩

end Relation

end DomProtocol.Route
