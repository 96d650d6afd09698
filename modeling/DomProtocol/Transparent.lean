import DomProtocol.Crypto

/-! # Transparent primitives

A concrete instance of `Primitives` in which every statement about the protocol can be evaluated. A
commitment is its opening: the group is `ℤ × ℤ` with `G = (1, 0)` and `H = (0, 1)`, and 33 octets
with first octet 2 encode the point whose first coordinate stands in the next 24 octets and whose
second in the last 8. A range proof is accepted when the committed value is in range, and the hash

* of a header (256 octets) names its height and nonce,
* of a signature challenge (149 octets) is one if the nonce point commits to no value, else zero,
* of any other string is zero.

So a signature is accepted only for an excess that commits to no value, as with the real primitives.
-/

namespace DomProtocol.Transparent

/-- Encode the point `(blinding, value)`, of which 192 and 64 bits are kept. -/
def pointBytes (blinding value : Nat) : Octets 33 :=
  BitVec.ofNat _ (2 * 2 ^ 256 + blinding % 2 ^ 192 * 2 ^ 64 + value % 2 ^ 64)

/-- First octet of an encoding. -/
def tagOf (bytes : Octets 33) : Nat := bytes.toNat / 2 ^ 256

/-- First coordinate of the encoded point. -/
def blindingOf (bytes : Octets 33) : Nat := bytes.toNat % 2 ^ 256 / 2 ^ 64

/-- Second coordinate of the encoded point. -/
def valueOf (bytes : Octets 33) : Nat := bytes.toNat % 2 ^ 64

/-- The hash of this instance. -/
def hash (data : Bytes) : Hash256 :=
  if data.length = 256 then
    BitVec.ofNat _ (leNat ((data.drop 4).take 8) * 2 ^ 64 + leNat ((data.drop 216).take 8) + 1)
  else if data.length = 149 then
    if beNat ((data.drop 44).take 8) = 0 then 1 else 0
  else 0

/-- The transparent instance. -/
@[reducible] def primitives : Primitives where
  blake2b256 := hash
  Point := ℤ × ℤ
  generator := (1, 0)
  hPoint := (0, 1)
  isSec1Encoding bytes := tagOf bytes = 2
  affineFromEncoded bytes := some (blindingOf bytes, valueOf bytes)
  compress point := pointBytes point.1.toNat point.2.toNat
  isPublicKey bytes := tagOf bytes = 2
  proofHasValidCurvePoints _ := true
  bulletproofVerify commitment _ _ _ := .ok (valueOf commitment < 2 ^ 52)
  proveRangeWithNonce _ _ _ := .ok ([], 0)
  schnorrSign _ _ _ := .ok 0
  randomxHash _ _ := .ok 0
  fastRegtestMiningRequested := false

end DomProtocol.Transparent
