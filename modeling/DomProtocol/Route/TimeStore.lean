import DomProtocol.Route.TimePolicy

/-! # The durable time store of a route (`route-time-anchor`, `signed.rs` and `store.rs`)

One database per route keeps the signed policy, the current signed evidence and the history of all
evidence ever admitted. A **`Db`** is its committed content and a **`Store`** an open handle.

Every mutating call has the shape of **`Store.transact`**: its context is checked against the pins
of the database, the clock high-water mark is advanced in a transaction of its own, and then one
transaction does the work. A refusal rolls it back, but the two calls that record a contradiction
commit it and refuse afterwards (**`Committed`**).

Signed objects are the values their canonical octets denote, and the curve is the class **`Secp`**.
-/

namespace DomProtocol.Route

open Settlement (Digest32 ChainId SettlementTerms Blake2b)

open Settlement.Blake2b (blake2b256)

/-! ## Signed policies and evidence -/

/-- **The third-party signature scheme.** -/
class Secp where
  validateXonlyKey : Octets 32 → Bool
  verifyBip340 : Octets 32 → Digest32 → Octets 64 → Bool

export Secp (validateXonlyKey verifyBip340)

/-- A threshold set of authorities. -/
structure AuthoritySet where
  threshold : UInt16
  xonlyKeys : List (Octets 32)
  deriving DecidableEq

/-- An indexed signature. -/
structure TimeAnchorSignature where
  signerIndex : UInt16
  signature : Octets 64
  deriving DecidableEq

/-- Hard bound on authorities and signatures. -/
def maxTimeAnchorAuthorities : Nat := 16

/-- The signatures are present, bounded, nonzero and of increasing signers. -/
def validateSignatureShape (signatures : List TimeAnchorSignature) : Except RouteTimeError Unit := do
  rejectIf (signatures = [] ∨ maxTimeAnchorAuthorities < signatures.length) .boundExceeded
  let _ ← signatures.foldlM (fun previous signature => do
      rejectIf (signature.signature = 0 ∨ previous.any (signature.signerIndex ≤ ·))
        .invalidSignature
      pure (some signature.signerIndex))
    (none : Option UInt16)

section Signed

variable [Secp]

/-- The rules of an authority set. -/
def validateAuthoritySet (authorities : AuthoritySet) : Except RouteTimeError Unit := do
  rejectIf (authorities.xonlyKeys = [] ∨
    maxTimeAnchorAuthorities < authorities.xonlyKeys.length ∨ authorities.threshold = 0 ∨
    authorities.xonlyKeys.length < authorities.threshold.toNat) .invalidAuthoritySet
  forEach (fun key => rejectIf (¬ validateXonlyKey key) .invalidAuthoritySet) authorities.xonlyKeys

/-- **Verification of threshold signatures.** -/
def verifySignatures (authorities : AuthoritySet) (digest : Digest32)
    (signatures : List TimeAnchorSignature) : Except RouteTimeError Unit := do
  validateAuthoritySet authorities
  validateSignatureShape signatures
  forEach (fun signature : TimeAnchorSignature => do
      let key ← okOr .invalidSignature (authorities.xonlyKeys[signature.signerIndex.toNat]?)
      rejectIf (¬ verifyBip340 key digest signature.signature) .invalidSignature)
    signatures
  rejectIf (signatures.length < authorities.threshold.toNat) .thresholdNotMet

variable [Blake2b]

/-- The digest that pins an authority set. -/
def authoritySetDigest (authorities : AuthoritySet) : Except RouteTimeError Digest32 := do
  validateAuthoritySet authorities
  pure (blake2b256 (utf8 "DOM-INTEROP/ROUTE-TIME-AUTHORITY-SET/V2\x00" ++
    beBytes 2 authorities.threshold.toNat ++ beBytes 2 authorities.xonlyKeys.length ++
    authorities.xonlyKeys.flatMap Octets.toList))

/-- Authenticated inputs of the operations on the policy. -/
structure PolicyContext where
  policyAuthorities : AuthoritySet
  registry : ResolvedRegistry
  upstream : SettlementTerms
  downstream : SettlementTerms

/-- Authenticated inputs of the operations on the evidence. -/
structure EvidenceContext where
  policy : PolicyContext
  evidenceAuthorities : AuthoritySet

/-- A policy with the signatures of its authorities. -/
structure SignedRouteTimePolicy where
  policy : RouteTimePolicy
  signatures : List TimeAnchorSignature
  deriving DecidableEq

/-- Evidence with the signatures of its authorities. -/
structure SignedRouteTimeEvidence where
  evidence : RouteTimeEvidence
  signatures : List TimeAnchorSignature
  deriving DecidableEq

namespace SignedRouteTimePolicy

/-- Canonical octets exist for a static policy with well-shaped signatures. -/
def canonicalBytes (signed : SignedRouteTimePolicy) : Except RouteTimeError SignedRouteTimePolicy :=
  do
    let _ ← signed.policy.decode
    validateSignatureShape signed.signatures
    pure signed

/-- Decoding checks the signatures' shape, the policy, and that the octets are canonical. -/
def decode (signed : SignedRouteTimePolicy) : Except RouteTimeError SignedRouteTimePolicy := do
  validateSignatureShape signed.signatures
  let _ ← signed.policy.decode
  signed.canonicalBytes

/-- The signatures and the registry, without regard to time. -/
def verifyAuthenticity (signed : SignedRouteTimePolicy) (context : PolicyContext) :
    Except RouteTimeError RouteTimePolicy := do
  let policy ← signed.policy.decode
  policy.validateAgainst context.registry context.upstream context.downstream
  let digest ← policy.policyDigest
  verifySignatures context.policyAuthorities digest signed.signatures
  pure policy

/-- **Verification of a policy** at a second of its validity. -/
def verify (signed : SignedRouteTimePolicy) (context : PolicyContext) (now : UInt64) :
    Except RouteTimeError RouteTimePolicy := do
  let policy ← signed.verifyAuthenticity context
  rejectIf (now < policy.limits.validFromSeconds ∨ policy.limits.expiresAtSeconds ≤ now)
    .policyExpired
  pure policy

end SignedRouteTimePolicy

namespace SignedRouteTimeEvidence

/-- Canonical octets exist for evidence with well-shaped signatures. -/
def canonicalBytes (signed : SignedRouteTimeEvidence) :
    Except RouteTimeError SignedRouteTimeEvidence := do
  validateSignatureShape signed.signatures
  pure signed

/-- Decoding checks the signatures' shape and that the octets are canonical. -/
def decode (signed : SignedRouteTimeEvidence) : Except RouteTimeError SignedRouteTimeEvidence := do
  validateSignatureShape signed.signatures
  signed.canonicalBytes

/-- The signatures, and validity at the second of observation. -/
def verifyAuthenticity (signed : SignedRouteTimeEvidence) (authorities : AuthoritySet)
    (policy : RouteTimePolicy) : Except RouteTimeError RouteTimeEvidence := do
  signed.evidence.validateAt policy signed.evidence.observedAtSeconds
  verifySignatures authorities signed.evidence.evidenceDigest signed.signatures
  pure signed.evidence

/-- **Verification of evidence** that must be fresh. -/
def verify (signed : SignedRouteTimeEvidence) (authorities : AuthoritySet)
    (policy : RouteTimePolicy) (now : UInt64) : Except RouteTimeError RouteTimeEvidence := do
  let evidence ← signed.verifyAuthenticity authorities policy
  evidence.validateAt policy now
  pure evidence

end SignedRouteTimeEvidence

end Signed

/-! ## The database -/

/-- The pins of a database. -/
structure StoreConfig where
  networkId : Digest32
  registryDigest : Digest32
  routeScopeDigest : Digest32
  policyAuthoritySetDigest : Digest32
  evidenceAuthoritySetDigest : Digest32
  deriving DecidableEq

/-- No pin is zero. -/
def StoreConfig.validate (config : StoreConfig) : Except RouteTimeError Unit :=
  rejectIf (config.networkId = 0 ∨ config.registryDigest = 0 ∨ config.routeScopeDigest = 0 ∨
    config.policyAuthoritySetDigest = 0 ∨ config.evidenceAuthoritySetDigest = 0) .invalidPolicy

/-- Status of an evidence row. -/
inductive EvidenceStatus where
  | active
  | invalidated
  | conflict
  deriving DecidableEq

/-- Stored tag of a status. -/
def EvidenceStatus.tag : EvidenceStatus → ℕ
  | active => 0
  | invalidated => 1
  | conflict => 2

/-- The frozen policy. -/
structure PolicyRow where
  digest : Digest32
  signed : SignedRouteTimePolicy
  deriving DecidableEq

/-- A row of evidence, with the columns derived from it. -/
structure EvidenceRow where
  sequence : UInt64
  digest : Digest32
  policyDigest : Digest32
  observedAt : UInt64
  expiresAt : UInt64
  status : EvidenceStatus
  signed : SignedRouteTimeEvidence
  deriving DecidableEq

/-- **The committed content of a database.** -/
structure Db where
  pins : StoreConfig
  clockHighWater : UInt64
  openingEpoch : UInt64
  revision : UInt64
  policy : Option PolicyRow
  current : Option EvidenceRow
  history : List EvidenceRow

/-- **An open store**, which belongs to one opening of the database. -/
structure Store where
  db : Db
  config : StoreConfig
  openingEpoch : UInt64

/-- Hard bound on the history. -/
def maxHistoryRows : Nat := 4096

namespace Db

/-- The history bound. -/
def enforceHistoryBound (db : Db) : Except RouteTimeError Unit :=
  rejectIf (maxHistoryRows < db.history.length) .boundExceeded

/-- The next revision. -/
def incrementRevision (db : Db) : Except RouteTimeError Db := do
  let revision ← okOr .corruptState (checkedAdd db.revision 1)
  pure { db with revision }

/-- A new row of the history, whose key is the digest. -/
def insertEvidenceHistory (db : Db) (row : EvidenceRow) : Except RouteTimeError Db := do
  rejectIf (∃ old ∈ db.history, old.digest = row.digest) .evidenceRollback
  pure { db with history := db.history ++ [row] }

end Db

/-- The row of evidence. -/
def evidenceRow [Blake2b] (signed : SignedRouteTimeEvidence) (policyDigest : Digest32)
    (status : EvidenceStatus) : EvidenceRow where
  sequence := signed.evidence.sequence
  digest := signed.evidence.evidenceDigest
  policyDigest := policyDigest
  observedAt := signed.evidence.observedAtSeconds
  expiresAt := signed.evidence.expiresAtSeconds
  status := status
  signed := signed

/-- The columns agree with the evidence. -/
def reconcileEvidenceRow [Blake2b] (row : EvidenceRow) (evidence : RouteTimeEvidence) :
    Except RouteTimeError Unit :=
  rejectIf (row.sequence ≠ evidence.sequence ∨ row.digest ≠ evidence.evidenceDigest ∨
    row.policyDigest ≠ evidence.policyDigest ∨ row.observedAt ≠ evidence.observedAtSeconds ∨
    row.expiresAt ≠ evidence.expiresAtSeconds) .corruptState

/-- What must never move in a checkpoint of a route. -/
structure FrozenAnchor where
  role : CheckpointRole
  clockKind : ClockKind
  chainId : ChainId
  genesisHash : Digest32
  profileDigest : Digest32
  anchorHeight : UInt64
  anchorHash : Digest32
  parentHash : Digest32
  timeLowerSeconds : UInt64
  timeUpperSeconds : UInt64
  deriving DecidableEq

/-- The frozen part of a checkpoint. -/
def frozenAnchor (checkpoint : CanonicalTimeCheckpoint) : FrozenAnchor where
  role := checkpoint.role
  clockKind := checkpoint.clockKind
  chainId := checkpoint.chainId
  genesisHash := checkpoint.genesisHash
  profileDigest := checkpoint.profileDigest
  anchorHeight := checkpoint.anchorHeight
  anchorHash := checkpoint.anchorHash
  parentHash := checkpoint.parentHash
  timeLowerSeconds := checkpoint.timeLowerSeconds
  timeUpperSeconds := checkpoint.timeUpperSeconds

/-- Whether no anchor moved. -/
def sameFrozenAnchors (left right : RouteTimeEvidence) : Prop :=
  ∀ pair ∈ left.checkpoints.toList.zip right.checkpoints.toList,
    frozenAnchor pair.1 = frozenAnchor pair.2

/-- Whether every tip stays or grows. -/
def tipsExtend (left right : RouteTimeEvidence) : Prop :=
  ∀ pair ∈ left.checkpoints.toList.zip right.checkpoints.toList,
    pair.1.canonicalTipHeight < pair.2.canonicalTipHeight ∨
      (pair.2.canonicalTipHeight = pair.1.canonicalTipHeight ∧
        pair.2.canonicalTipHash = pair.1.canonicalTipHash)

instance (left right : RouteTimeEvidence) : Decidable (sameFrozenAnchors left right) :=
  inferInstanceAs (Decidable (∀ pair ∈ left.checkpoints.toList.zip right.checkpoints.toList,
    frozenAnchor pair.1 = frozenAnchor pair.2))

instance (left right : RouteTimeEvidence) : Decidable (tipsExtend left right) :=
  inferInstanceAs (Decidable (∀ pair ∈ left.checkpoints.toList.zip right.checkpoints.toList, _ ∨ _))

/-! ## Transactions -/

/-- A committed transaction: the answer of the call, which may be a refusal, and the database. -/
structure Committed (α : Type) where
  answer : Except RouteTimeError α
  db : Db

namespace Store

/-- The handle belongs to the last opening of its database. -/
def requireCurrentOpening (s : Store) : Except RouteTimeError Unit :=
  rejectIf (s.db.openingEpoch ≠ s.openingEpoch) .staleCapability

/-- **The clock only moves forward**, in a transaction of its own. -/
def advanceClockDurably (s : Store) (now : UInt64) : Except RouteTimeError Store := do
  s.requireCurrentOpening
  rejectIf (now < s.db.clockHighWater) .clockRollback
  pure { s with db := { s.db with clockHighWater := now } }

/-- **The shape of a call**: check the arguments, advance the clock, run one transaction. -/
def transact {α : Type} (s : Store) (check : Except RouteTimeError Unit) (now : UInt64)
    (body : Store → Except RouteTimeError (Committed α)) : Except RouteTimeError α × Store :=
  match check with
  | .error e => (.error e, s)
  | .ok () =>
    match s.advanceClockDurably now with
    | .error e => (.error e, s)
    | .ok clocked =>
      match body clocked with
      | .error e => (.error e, clocked)
      | .ok committed => (committed.answer, { clocked with db := committed.db })

end Store

section Calls

variable [Blake2b] [Secp]

namespace Store

/-- **The context of a call** is the one the store is pinned to. -/
def validateCallContext (s : Store) (context : PolicyContext)
    (evidenceAuthorities : Option AuthoritySet) : Except RouteTimeError Unit := do
  rejectIf (context.registry.manifest.networkId ≠ s.config.networkId) .registryMismatch
  rejectIf (context.registry.manifestDigest ≠ s.config.registryDigest) .registryMismatch
  let scope ← routeScopeDigest context.upstream context.downstream
  rejectIf (scope ≠ s.config.routeScopeDigest) .registryMismatch
  let policySet ← authoritySetDigest context.policyAuthorities
  rejectIf (policySet ≠ s.config.policyAuthoritySetDigest) .registryMismatch
  forEach (fun authorities => do
      let evidenceSet ← authoritySetDigest authorities
      rejectIf (evidenceSet ≠ s.config.evidenceAuthoritySetDigest) .invalidAuthoritySet)
    evidenceAuthorities.toList

/-- The context of a call on the evidence. -/
def validateContext (s : Store) (context : EvidenceContext) : Except RouteTimeError Unit :=
  s.validateCallContext context.policy (some context.evidenceAuthorities)

end Store

/-! ### Installing a policy -/

/-- Whether an installation changed anything. -/
inductive InstallOutcome where
  | installed
  | alreadyCurrent
  deriving DecidableEq

namespace Db

/-- The retained policy, decoded. -/
def loadPolicy (db : Db) : Except RouteTimeError SignedRouteTimePolicy := do
  let row ← okOr .invalidPolicy db.policy
  row.signed.decode

/-- A policy that is offered again must be the retained one. -/
def comparePolicy (db : Db) (row : PolicyRow) (context : PolicyContext) (digest : Digest32)
    (signed : SignedRouteTimePolicy) : Except RouteTimeError (Committed InstallOutcome) := do
  let retained ← row.signed.decode
  let retainedPolicy ← retained.verifyAuthenticity context
  let retainedDigest ← retainedPolicy.policyDigest
  rejectIf (row.digest ≠ retainedDigest) .corruptState
  rejectIf (retainedDigest ≠ digest ∨ row.signed ≠ signed) .policyConflict
  pure ⟨.ok .alreadyCurrent, db⟩

/-- The first policy is frozen. -/
def freezePolicy (db : Db) (digest : Digest32) (signed : SignedRouteTimePolicy) :
    Except RouteTimeError (Committed InstallOutcome) := do
  let db ← ({ db with policy := some ⟨digest, signed⟩ } : Db).incrementRevision
  pure ⟨.ok .installed, db⟩

end Db

/-- The transaction of `installPolicy`. -/
def Store.policyTransaction (signed : SignedRouteTimePolicy) (context : PolicyContext)
    (now : UInt64) (s : Store) : Except RouteTimeError (Committed InstallOutcome) := do
  let policy ← signed.verify context now
  let signedBytes ← signed.canonicalBytes
  let digest ← policy.policyDigest
  s.requireCurrentOpening
  s.db.enforceHistoryBound
  match s.db.policy with
  | some row => s.db.comparePolicy row context digest signedBytes
  | none => s.db.freezePolicy digest signedBytes

/-- **Freezing the one policy of the route.** -/
def Store.installPolicy (s : Store) (signed : SignedRouteTimePolicy) (context : PolicyContext)
    (now : UInt64) : Except RouteTimeError InstallOutcome × Store :=
  s.transact (s.validateCallContext context none) now
    (Store.policyTransaction signed context now)

/-! ### Installing evidence -/

namespace Db

/-- **A contradiction**: the evidence is kept as a conflict, and the current row is invalidated. -/
def persistConflictAndInvalidate (db : Db) (signed : SignedRouteTimeEvidence)
    (policyDigest : Digest32) : Except RouteTimeError Db := do
  let db ← db.insertEvidenceHistory (evidenceRow signed policyDigest .conflict)
  let db ← ({ db with
    current := db.current.map ({ · with status := .invalidated }) } : Db).incrementRevision
  db.enforceHistoryBound
  pure db

/-- Evidence that becomes current. -/
def appendEvidence (db : Db) (signed : SignedRouteTimeEvidence) (policyDigest : Digest32) :
    Except RouteTimeError (Committed InstallOutcome) := do
  let row := evidenceRow signed policyDigest .active
  let db ← db.insertEvidenceHistory row
  let db ← ({ db with current := some row } : Db).incrementRevision
  db.enforceHistoryBound
  pure ⟨.ok .installed, db⟩

/-- **Evidence is compared with the current row**: repeated, equivocating, rolled back, moved, or
extending it. -/
def compareEvidence (db : Db) (row : EvidenceRow) (authorities : AuthoritySet)
    (policy : RouteTimePolicy) (policyDigest : Digest32) (signed : SignedRouteTimeEvidence) :
    Except RouteTimeError (Committed InstallOutcome) := do
  let retainedSigned ← row.signed.decode
  let retained ← retainedSigned.verifyAuthenticity authorities policy
  reconcileEvidenceRow row retained
  rejectIf (row.status = .invalidated) .anchorReorged
  rejectIf (row.status ≠ .active) .corruptState
  let evidence := signed.evidence
  if row.digest = evidence.evidenceDigest ∧ row.signed = signed then
    pure ⟨.ok .alreadyCurrent, db⟩
  else if evidence.sequence = retained.sequence then do
    let db ← db.persistConflictAndInvalidate signed policyDigest
    pure ⟨.error .evidenceRollback, db⟩
  else if evidence.sequence < retained.sequence ∨
      evidence.observedAtSeconds ≤ retained.observedAtSeconds then
    .error .evidenceRollback
  else if ¬ sameFrozenAnchors retained evidence ∨ ¬ tipsExtend retained evidence then do
    let db ← db.persistConflictAndInvalidate signed policyDigest
    pure ⟨.error .anchorReorged, db⟩
  else db.appendEvidence signed policyDigest

end Db

/-- The transaction of `installEvidence`. -/
def Store.evidenceTransaction (signed : SignedRouteTimeEvidence) (context : EvidenceContext)
    (now : UInt64) (s : Store) : Except RouteTimeError (Committed InstallOutcome) := do
  let retainedSignedPolicy ← s.db.loadPolicy
  let policy ← retainedSignedPolicy.verify context.policy now
  let _ ← signed.verify context.evidenceAuthorities policy now
  let signedBytes ← signed.canonicalBytes
  let policyDigest ← policy.policyDigest
  s.requireCurrentOpening
  s.db.enforceHistoryBound
  match s.db.current with
  | some row =>
    s.db.compareEvidence row context.evidenceAuthorities policy policyDigest signedBytes
  | none => s.db.appendEvidence signedBytes policyDigest

/-- **Installing a fresh signed revalidation.** -/
def Store.installEvidence (s : Store) (signed : SignedRouteTimeEvidence)
    (context : EvidenceContext) (now : UInt64) : Except RouteTimeError InstallOutcome × Store :=
  s.transact (s.validateContext context) now (Store.evidenceTransaction signed context now)

/-! ### Ladder proofs -/

/-- The transaction of `proveRouteLadder`, which commits nothing. -/
def Store.ladderTransaction (context : EvidenceContext) (now : UInt64) (s : Store) :
    Except RouteTimeError (Committed VerifiedRouteTimeLadder) := do
  s.requireCurrentOpening
  s.db.enforceHistoryBound
  let signedPolicy ← s.db.loadPolicy
  let policy ← signedPolicy.verify context.policy now
  let row ← okOr .invalidEvidence s.db.current
  rejectIf (row.status = .invalidated) .anchorReorged
  rejectIf (row.status ≠ .active) .corruptState
  let signedEvidence ← row.signed.decode
  let evidence ← signedEvidence.verify context.evidenceAuthorities policy now
  reconcileEvidenceRow row evidence
  let proof ← proveLadder policy evidence context.policy.upstream context.policy.downstream now
    s.db.revision s.openingEpoch
  pure ⟨.ok proof, s.db⟩

/-- **Issuing a ladder proof** from the current policy and evidence. -/
def Store.proveRouteLadder (s : Store) (context : EvidenceContext) (now : UInt64) :
    Except RouteTimeError VerifiedRouteTimeLadder × Store :=
  s.transact (s.validateContext context) now (Store.ladderTransaction context now)

/-- A proof belongs to this opening and the current evidence revision. -/
def Store.revalidateCapability (s : Store) (proof : VerifiedRouteTimeLadder) :
    Except RouteTimeError Unit := do
  let row ← okOr .staleCapability s.db.current
  rejectIf (proof.storeOpeningEpoch ≠ s.db.openingEpoch ∨ proof.storeRevision ≠ s.db.revision ∨
    proof.policyDigest ≠ row.policyDigest ∨ proof.evidenceDigest ≠ row.digest ∨
    row.status ≠ .active) .staleCapability

/-- The checks of `revalidateCapabilityAt` behind the clock. -/
def Store.capabilityTransaction (proof : VerifiedRouteTimeLadder) (now : UInt64) (s : Store) :
    Except RouteTimeError (Committed Unit) := do
  s.revalidateCapability proof
  rejectIf (now < proof.issuedAtSeconds) .clockRollback
  rejectIf (proof.validUntilSeconds ≤ now) .evidenceStale
  pure ⟨.ok (), s.db⟩

/-- **Revalidation of a proof** at a second, which advances the clock even if it fails. -/
def Store.revalidateCapabilityAt (s : Store) (proof : VerifiedRouteTimeLadder) (now : UInt64) :
    Except RouteTimeError Unit × Store :=
  s.transact (.ok ()) now (Store.capabilityTransaction proof now)

/-- **Consuming a proof** for a current capability. -/
def Store.consumeCapabilityAt (s : Store) (proof : VerifiedRouteTimeLadder) (now : UInt64) :
    Except RouteTimeError CurrentRouteTimeLadder × Store :=
  match s.revalidateCapabilityAt proof now with
  | (.ok (), s) => (.ok ⟨proof, now⟩, s)
  | (.error e, s) => (.error e, s)

/-! ### Frozen checkpoints -/

/-- The logical key of an admission. -/
structure FrozenRouteTimeCheckpoint where
  routeScopeDigest : Digest32
  policyDigest : Digest32
  evidenceDigest : Digest32
  evidenceSequence : UInt64

/-- A key has no zero component. -/
def FrozenRouteTimeCheckpoint.new (routeScopeDigest policyDigest evidenceDigest : Digest32)
    (evidenceSequence : UInt64) : Except RouteTimeError FrozenRouteTimeCheckpoint := do
  rejectIf (routeScopeDigest = 0 ∨ policyDigest = 0 ∨ evidenceDigest = 0 ∨ evidenceSequence = 0)
    .frozenCheckpointMismatch
  pure { routeScopeDigest, policyDigest, evidenceDigest, evidenceSequence }

/-- The time-proof checkpoint retained by an admission. -/
structure FrozenRouteTimeProofCheckpoint where
  ancestry : FrozenRouteTimeCheckpoint
  proofDigest : Digest32
  issuedAtSeconds : UInt64
  validUntilSeconds : UInt64
  validatedAtSeconds : UInt64

/-- A checkpoint is coherent. -/
def FrozenRouteTimeProofCheckpoint.new (ancestry : FrozenRouteTimeCheckpoint)
    (proofDigest : Digest32) (issuedAtSeconds validUntilSeconds validatedAtSeconds : UInt64) :
    Except RouteTimeError FrozenRouteTimeProofCheckpoint := do
  rejectIf (proofDigest = 0 ∨ issuedAtSeconds = 0 ∨ validatedAtSeconds < issuedAtSeconds ∨
    validUntilSeconds ≤ validatedAtSeconds) .frozenCheckpointMismatch
  pure { ancestry, proofDigest, issuedAtSeconds, validUntilSeconds, validatedAtSeconds }

/-! ### The audit -/

/-- Any failure of the audit is a corrupt state. -/
def corrupt {α : Type} : Except RouteTimeError α → Except RouteTimeError α :=
  mapError fun _ => .corruptState

/-- Evidence strictly follows earlier evidence. -/
def Follows (previous evidence : RouteTimeEvidence) : Prop :=
  previous.sequence < evidence.sequence ∧
    previous.observedAtSeconds < evidence.observedAtSeconds ∧
    sameFrozenAnchors previous evidence ∧ tipsExtend previous evidence

instance (previous evidence : RouteTimeEvidence) : Decidable (Follows previous evidence) :=
  inferInstanceAs (Decidable (_ ∧ _ ∧ _ ∧ _))

/-- What the audit remembers of the history: the sequence of the conflict and the latest active
evidence. -/
structure AuditState where
  conflictSequence : Option UInt64
  previousActive : Option RouteTimeEvidence

/-- **One row of the history under audit.** -/
def auditRow (policy : RouteTimePolicy) (policyDigest : Digest32) (seen : AuditState)
    (row : EvidenceRow) : Except RouteTimeError AuditState := do
  let signed ← corrupt row.signed.decode
  let evidence := signed.evidence
  corrupt (evidence.validateAt policy evidence.observedAtSeconds)
  rejectIf (row.digest ≠ evidence.evidenceDigest ∨ row.sequence ≠ evidence.sequence ∨
    row.policyDigest ≠ policyDigest ∨ evidence.policyDigest ≠ policyDigest ∨
    row.observedAt ≠ evidence.observedAtSeconds ∨ row.expiresAt ≠ evidence.expiresAtSeconds)
    .corruptState
  match row.status with
  | .active => do
    rejectIf (∃ previous ∈ seen.previousActive, ¬ Follows previous evidence) .corruptState
    pure { seen with previousActive := some evidence }
  | .conflict => do
    rejectIf (seen.conflictSequence.isSome) .corruptState
    pure { seen with conflictSequence := some evidence.sequence }
  | .invalidated => .error .corruptState

/-- The order in which the audit reads the history. -/
def historyOrder (left right : EvidenceRow) : Bool :=
  left.sequence < right.sequence ∨ (left.sequence = right.sequence ∧
    (left.status.tag < right.status.tag ∨ (left.status.tag = right.status.tag ∧
      left.digest ≤ right.digest)))

/-- The current status fits the conflict of the history. -/
def statusIsConsistent (row : EvidenceRow) : Option UInt64 → Bool
  | none => row.status = .active
  | some sequence => row.status = .invalidated && row.sequence ≤ sequence

namespace Db

/-- The current row under audit. -/
def auditCurrent (db : Db) (policy : RouteTimePolicy) (policyDigest : Digest32)
    (seen : AuditState) : Except RouteTimeError Unit :=
  match db.current with
  | none =>
    rejectIf (db.history ≠ [] ∨ seen.previousActive ≠ none ∨ seen.conflictSequence ≠ none)
      .corruptState
  | some row => do
    let signed ← corrupt row.signed.decode
    let evidence := signed.evidence
    corrupt (evidence.validateAt policy evidence.observedAtSeconds)
    corrupt (reconcileEvidenceRow row evidence)
    let latest ← okOr .corruptState seen.previousActive
    rejectIf (row.policyDigest ≠ policyDigest ∨ row.sequence ≠ latest.sequence ∨
      row.digest ≠ latest.evidenceDigest ∨ ¬ statusIsConsistent row seen.conflictSequence)
      .corruptState
    rejectIf ((db.history.filter fun old => old.digest = row.digest ∧ old.status = .active ∧
      old.signed = row.signed).length ≠ 1) .corruptState

/-- **The audit of the whole database.** -/
def validateRetainedEncoding (db : Db) (config : StoreConfig) : Except RouteTimeError Unit :=
  match db.policy with
  | none => rejectIf (db.current ≠ none ∨ db.history ≠ [] ∨ db.revision ≠ 0) .corruptState
  | some row => do
    let signed ← corrupt row.signed.decode
    let policy ← corrupt signed.policy.decode
    let policyDigest ← corrupt policy.policyDigest
    rejectIf (row.digest ≠ policyDigest ∨ policy.networkId ≠ config.networkId ∨
      policy.registryDigest ≠ config.registryDigest ∨
      policy.routeScopeDigest ≠ config.routeScopeDigest) .corruptState
    let seen ← (db.history.mergeSort historyOrder).foldlM (auditRow policy policyDigest)
      ⟨none, none⟩
    rejectIf (db.revision.toNat ≠ db.history.length + 1) .corruptState
    db.auditCurrent policy policyDigest seen

/-- The metadata belongs to the expected pins. -/
def validateMeta (db : Db) (expected : StoreConfig) : Except RouteTimeError Unit :=
  rejectIf (db.pins ≠ expected ∨ db.openingEpoch = 0) .corruptState

/-- The content of a new database. -/
def created (config : StoreConfig) : Db where
  pins := config
  clockHighWater := 0
  openingEpoch := 1
  revision := 0
  policy := none
  current := none
  history := []

end Db

namespace Store

/-- **Creating a store.** -/
def create (config : StoreConfig) : Except RouteTimeError Store := do
  config.validate
  pure { db := Db.created config, config, openingEpoch := 1 }

/-- **Opening an existing store**: an audit, and a new opening epoch. -/
def openExisting (db : Db) (config : StoreConfig) : Except RouteTimeError Store := do
  config.validate
  db.validateMeta config
  db.enforceHistoryBound
  db.validateRetainedEncoding config
  let openingEpoch ← okOr .corruptState (checkedAdd db.openingEpoch 1)
  pure { db := { db with openingEpoch }, config, openingEpoch }

/-- The ancestry check of one active row. -/
def ancestryRow (policy : RouteTimePolicy) (authorities : AuthoritySet)
    (checkpoint : FrozenRouteTimeCheckpoint) (previous : Option RouteTimeEvidence)
    (row : EvidenceRow) : Except RouteTimeError (Option RouteTimeEvidence) := do
  let signed ← row.signed.decode
  let evidence ← signed.verifyAuthenticity authorities policy
  reconcileEvidenceRow row evidence
  rejectIf (row.status ≠ .active ∨ row.policyDigest ≠ checkpoint.policyDigest ∨
    (previous = none ∧ (row.sequence ≠ checkpoint.evidenceSequence ∨
      row.digest ≠ checkpoint.evidenceDigest))) .frozenCheckpointMismatch
  rejectIf (∃ prior ∈ previous, ¬ Follows prior evidence) .frozenCheckpointMismatch
  pure (some evidence)

/-- The checkpoint of an admission is in the ancestry of the current evidence. -/
def verifyFrozenCheckpointAncestry (s : Store) (checkpoint : FrozenRouteTimeCheckpoint)
    (context : EvidenceContext) (proof : VerifiedRouteTimeLadder) : Except RouteTimeError Unit := do
  s.validateContext context
  let signedPolicy ← s.db.loadPolicy
  let policy ← signedPolicy.verifyAuthenticity context.policy
  let digest ← policy.policyDigest
  rejectIf (digest ≠ checkpoint.policyDigest ∨ proof.policyDigest ≠ checkpoint.policyDigest ∨
    proof.routeScopeDigest ≠ checkpoint.routeScopeDigest ∨
    proof.evidenceSequence < checkpoint.evidenceSequence ∨
    (proof.evidenceSequence = checkpoint.evidenceSequence ∧
      proof.evidenceDigest ≠ checkpoint.evidenceDigest)) .frozenCheckpointMismatch
  let rows := (s.db.history.filter fun row =>
    checkpoint.evidenceSequence ≤ row.sequence ∧ row.status = .active).mergeSort historyOrder
  let last ← rows.foldlM (ancestryRow policy context.evidenceAuthorities checkpoint) none
  let current ← okOr .frozenCheckpointMismatch last
  rejectIf (current.sequence ≠ proof.evidenceSequence ∨
    current.evidenceDigest ≠ proof.evidenceDigest) .frozenCheckpointMismatch

/-- **A current capability for an admitted route.** -/
def proveCurrentRouteLadderFromCheckpoint (s : Store) (checkpoint : FrozenRouteTimeCheckpoint)
    (context : EvidenceContext) (now : UInt64) :
    Except RouteTimeError CurrentRouteTimeLadder × Store :=
  if checkpoint.routeScopeDigest ≠ s.config.routeScopeDigest then
    (.error .frozenCheckpointMismatch, s)
  else
    match s.proveRouteLadder context now with
    | (.error e, s) => (.error e, s)
    | (.ok proof, s) =>
      match s.verifyFrozenCheckpointAncestry checkpoint context proof with
      | .error e => (.error e, s)
      | .ok () => s.consumeCapabilityAt proof now

/-- **Reconstruction of the ladder consumed by an admission**, from the retained rows. -/
def verifyFrozenRouteLadder (s : Store) (checkpoint : FrozenRouteTimeProofCheckpoint)
    (signedPolicy : SignedRouteTimePolicy) (signedEvidence : SignedRouteTimeEvidence)
    (context : EvidenceContext) : Except RouteTimeError VerifiedFrozenRouteTimeLadder := do
  s.validateContext context
  s.db.enforceHistoryBound
  s.db.validateRetainedEncoding s.config
  let policyBytes ← signedPolicy.canonicalBytes
  let policyRow ← okOr .frozenCheckpointMismatch s.db.policy
  rejectIf (policyRow.signed ≠ policyBytes) .frozenCheckpointMismatch
  let policy ← signedPolicy.verifyAuthenticity context.policy
  let ancestry := checkpoint.ancestry
  let policyDigest ← policy.policyDigest
  rejectIf (policyRow.digest ≠ ancestry.policyDigest ∨ policyDigest ≠ ancestry.policyDigest ∨
    policy.routeScopeDigest ≠ ancestry.routeScopeDigest) .frozenCheckpointMismatch
  let evidenceBytes ← signedEvidence.canonicalBytes
  let row ← okOr .frozenCheckpointMismatch (s.db.history.find? fun row =>
    row.digest = ancestry.evidenceDigest ∧ row.sequence = ancestry.evidenceSequence)
  rejectIf (row.signed ≠ evidenceBytes ∨ row.status ≠ .active) .frozenCheckpointMismatch
  let evidence ← signedEvidence.verifyAuthenticity context.evidenceAuthorities policy
  rejectIf (row.digest ≠ ancestry.evidenceDigest ∨ row.sequence ≠ ancestry.evidenceSequence ∨
    row.policyDigest ≠ ancestry.policyDigest ∨ row.observedAt ≠ evidence.observedAtSeconds ∨
    row.expiresAt ≠ evidence.expiresAtSeconds ∨
    evidence.evidenceDigest ≠ ancestry.evidenceDigest ∨
    evidence.sequence ≠ ancestry.evidenceSequence ∨
    evidence.policyDigest ≠ ancestry.policyDigest ∨
    evidence.routeScopeDigest ≠ ancestry.routeScopeDigest) .frozenCheckpointMismatch
  let proof ← proveLadder policy evidence context.policy.upstream context.policy.downstream
    checkpoint.issuedAtSeconds 0 0
  evidence.validateAt policy checkpoint.validatedAtSeconds
  rejectIf (proof.routeScopeDigest ≠ ancestry.routeScopeDigest ∨
    proof.policyDigest ≠ ancestry.policyDigest ∨ proof.evidenceDigest ≠ ancestry.evidenceDigest ∨
    proof.evidenceSequence ≠ ancestry.evidenceSequence ∨
    proof.bindingDigest ≠ checkpoint.proofDigest ∨
    proof.issuedAtSeconds ≠ checkpoint.issuedAtSeconds ∨
    proof.validUntilSeconds ≠ checkpoint.validUntilSeconds ∨
    checkpoint.validatedAtSeconds < checkpoint.issuedAtSeconds ∨
    checkpoint.validUntilSeconds ≤ checkpoint.validatedAtSeconds) .frozenCheckpointMismatch
  pure ⟨proof, checkpoint.validatedAtSeconds⟩

end Store

end Calls

end DomProtocol.Route
