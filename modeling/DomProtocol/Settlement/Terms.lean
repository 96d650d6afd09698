import DomProtocol.Settlement.Machine

/-! # Settlement terms (`kaystra-core`, `terms.rs`)

The frozen terms of one settlement, their validity rules, their canonical octets and the hash that
names them. The hash function comes from a third-party library: its two output sizes are the fields of
the class **`Blake2b`**. Nothing is assumed of them. -/

namespace DomProtocol.Settlement

/-- **The third-party hash function.** -/
class Blake2b where
  blake2b256 : Bytes → Digest32

export Blake2b (blake2b256)

/-! ## Vocabulary -/

/-- Asset registry identifier. -/
abbrev AssetId := Octets 32

/-- Public participant identifier. -/
abbrev ParticipantId := Octets 32

/-- Which side of the swap a leg is. -/
inductive LegRole where
  | dom
  | counterparty
  deriving DecidableEq

/-- Wire tag of a leg role. -/
def LegRole.tag : LegRole → UInt8
  | dom => 0x01
  | counterparty => 0x02

/-- Locking mechanism securing a leg. -/
inductive LockMechanism where
  | domAdaptor2of2
  | conditionLock
  | schnorrAdaptor
  | hashlockFallback
  | crossCurveSharedSpend
  | crossCurveConditionLock
  deriving DecidableEq

/-- Wire tag of a locking mechanism. -/
def LockMechanism.tag : LockMechanism → UInt8
  | domAdaptor2of2 => 0x01
  | conditionLock => 0x02
  | schnorrAdaptor => 0x03
  | hashlockFallback => 0x04
  | crossCurveSharedSpend => 0x05
  | crossCurveConditionLock => 0x06

/-- Refund-timelock specification for one leg. -/
inductive TimelockSpec where
  | blockHeight (value : UInt64)
  | timestampSeconds (value : UInt64)
  | btcTime512s (value : UInt64)
  deriving DecidableEq

/-- Finality policy enforced before an observation is trusted. -/
structure FinalityPolicy where
  minConfirmations : UInt32
  maxReorgDepth : UInt32
  deriving DecidableEq

/-- Frozen terms of one settlement leg. -/
structure LegTerms where
  role : LegRole
  chainId : ChainId
  assetId : AssetId
  amount : BitVec 128
  beneficiary : ParticipantId
  refundTo : ParticipantId
  mechanism : LockMechanism
  deadline : TimelockSpec
  finality : FinalityPolicy
  adapterProfileHash : Digest32
  deriving DecidableEq

/-- Upper fee bounds both parties accepted. -/
structure FeeLimit where
  domMax : BitVec 128
  counterpartyMax : BitVec 128
  deriving DecidableEq

/-- Recovery policy frozen into the terms. -/
structure RecoveryPolicy where
  refundBeforeFunding : Bool
  evidenceRetentionBlocks : UInt64
  deriving DecidableEq

/-- **The frozen terms of one settlement.** -/
structure SettlementTerms where
  settlementId : SettlementId
  sessionId : SessionId
  intentHash : Digest32
  solverId : Octets 32
  roster : ParticipantId × ParticipantId
  domLeg : LegTerms
  counterpartyLeg : LegTerms
  adaptorPointSec1 : Octets 33
  feeLimit : FeeLimit
  recovery : RecoveryPolicy
  assurancePolicyHash : Option Digest32
  policyVersion : UInt32
  metadata : Bytes
  deriving DecidableEq

/-- Validation and decoding failures of terms. -/
inductive TermsError where
  | invalidVersion
  | invalidTopology
  | invalidRoster
  | zeroAmount
  | invalidFinality
  | boundsExceeded
  | nonCanonicalPoint
  | invalidMagic
  | truncatedEncoding
  | unknownTag
  | trailingBytes
  deriving DecidableEq

/-- Hard bound on the metadata. -/
def maxMetadataBytes : Nat := 4096

/-- The first octet of a compressed point. -/
def sec1Tag (point : Octets 33) : UInt8 := point.toList.headD 0

/-! ## Validity -/

namespace SettlementTerms

/-- **The frozen validity rules**, in the source's order. -/
def validate (terms : SettlementTerms) : Except TermsError Unit := do
  rejectIf (terms.roster.2 ≤ terms.roster.1) .invalidRoster
  rejectIf (terms.domLeg.role ≠ .dom ∨ terms.counterpartyLeg.role ≠ .counterparty) .invalidTopology
  rejectIf (terms.domLeg.amount = 0 ∨ terms.counterpartyLeg.amount = 0) .zeroAmount
  forEach (fun f : FinalityPolicy =>
      rejectIf (f.minConfirmations = 0 ∨ f.maxReorgDepth < f.minConfirmations) .invalidFinality)
    [terms.domLeg.finality, terms.counterpartyLeg.finality]
  rejectIf (sec1Tag terms.adaptorPointSec1 ≠ 0x02 ∧ sec1Tag terms.adaptorPointSec1 ≠ 0x03)
    .nonCanonicalPoint
  rejectIf (maxMetadataBytes < terms.metadata.length) .boundsExceeded

end SettlementTerms

/-! ## Canonical octets -/

/-- Octets of a refund timelock. -/
def putTimelock : TimelockSpec → Bytes
  | .blockHeight value => 0x01 :: beBytes 8 value.toNat
  | .timestampSeconds value => 0x02 :: beBytes 8 value.toNat
  | .btcTime512s value => 0x03 :: beBytes 8 value.toNat

/-- Octets of a leg. -/
def putLeg (leg : LegTerms) : Bytes :=
  leg.role.tag :: (leg.chainId.toList ++ leg.assetId.toList ++ beBytes 16 leg.amount.toNat ++
    leg.beneficiary.toList ++ leg.refundTo.toList ++ [leg.mechanism.tag] ++
    putTimelock leg.deadline ++ beBytes 4 leg.finality.minConfirmations.toNat ++
    beBytes 4 leg.finality.maxReorgDepth.toNat ++ leg.adapterProfileHash.toList)

namespace SettlementTerms

/-- The encoding behind the canonical octets. -/
def encodeUnchecked (terms : SettlementTerms) : Bytes :=
  utf8 "DOMITRM1" ++ beBytes 2 1 ++ terms.settlementId.toList ++ terms.sessionId.toList ++
    terms.intentHash.toList ++ terms.solverId.toList ++ terms.roster.1.toList ++
    terms.roster.2.toList ++ putLeg terms.domLeg ++ putLeg terms.counterpartyLeg ++
    terms.adaptorPointSec1.toList ++ beBytes 16 terms.feeLimit.domMax.toNat ++
    beBytes 16 terms.feeLimit.counterpartyMax.toNat ++
    [if terms.recovery.refundBeforeFunding then 1 else 0] ++
    beBytes 8 terms.recovery.evidenceRetentionBlocks.toNat ++
    (match terms.assurancePolicyHash with
      | none => [0x00]
      | some hash => 0x01 :: hash.toList) ++
    beBytes 4 terms.policyVersion.toNat ++ beBytes 4 terms.metadata.length ++ terms.metadata

/-- Canonical octets: only valid terms encode. -/
def canonicalBytes (terms : SettlementTerms) : Except TermsError Bytes := do
  terms.validate
  pure terms.encodeUnchecked

/-- The hash that names the terms. -/
def termsHash [Blake2b] (terms : SettlementTerms) : Except TermsError Digest32 := do
  let encoded ← terms.canonicalBytes
  pure (blake2b256 (utf8 "DOM-INTEROP/SETTLEMENT-TERMS/V1\x00" ++ encoded))

theorem canonicalBytes_eq_ok {terms : SettlementTerms} {encoded : Bytes} :
    terms.canonicalBytes = .ok encoded ↔
      terms.validate = .ok () ∧ encoded = terms.encodeUnchecked := by
  rw [canonicalBytes, check_bind_eq_ok, pure_eq_ok, @eq_comm _ encoded]

end SettlementTerms

/-! ## Terms for examples -/

/-- A leg with two confirmations and a refund from height 100. -/
def exampleLeg (role : LegRole) : LegTerms :=
  ⟨role, 0, 0, 1, 0, 0, .domAdaptor2of2, .blockHeight 100, ⟨2, 2⟩, 0⟩

/-- Valid terms with a session of their own. -/
def exampleTerms (id : SettlementId) : SettlementTerms where
  settlementId := id
  sessionId := id
  intentHash := 0
  solverId := 0
  roster := (0, 1)
  domLeg := exampleLeg .dom
  counterpartyLeg := exampleLeg .counterparty
  adaptorPointSec1 := .ofList (2 :: List.replicate 32 0)
  feeLimit := ⟨0, 0⟩
  recovery := ⟨true, 0⟩
  assurancePolicyHash := none
  policyVersion := 1
  metadata := []

end DomProtocol.Settlement
