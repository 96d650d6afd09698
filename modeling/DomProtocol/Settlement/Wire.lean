import DomProtocol.Settlement.Store

/-! # Terms and envelopes as octets (`kaystra-core`, `terms.rs` and `store_port.rs`)

The frozen terms and the event envelope that is journalled, both read by a strict cursor over the
string.

**`settlement_codecs_exact`** says that each of the four decoders of the settlement core accepts exactly
the canonical octets. The store and the engine are modelled over values in place of octets; this is why
nothing is lost. -/

namespace DomProtocol.Settlement

open Scan

open Parses (field record)

/-! ## Terms -/

/-- The role with a wire tag. -/
def LegRole.ofTag : UInt8 → Option LegRole
  | 0x01 => some .dom
  | 0x02 => some .counterparty
  | _ => none

/-- The mechanism with a wire tag. -/
def LockMechanism.ofTag : UInt8 → Option LockMechanism
  | 0x01 => some .domAdaptor2of2
  | 0x02 => some .conditionLock
  | 0x03 => some .schnorrAdaptor
  | 0x04 => some .hashlockFallback
  | 0x05 => some .crossCurveSharedSpend
  | 0x06 => some .crossCurveConditionLock
  | _ => none

/-- The timelock with a wire tag and a value. -/
def timelockOfTag (tag : UInt8) (value : UInt64) : Option TimelockSpec :=
  match tag with
  | 0x01 => some (.blockHeight value)
  | 0x02 => some (.timestampSeconds value)
  | 0x03 => some (.btcTime512s value)
  | _ => none

/-- Wire tag of a timelock. -/
def timelockTag : TimelockSpec → UInt8
  | .blockHeight _ => 0x01
  | .timestampSeconds _ => 0x02
  | .btcTime512s _ => 0x03

/-- Value of a timelock. -/
def timelockValue : TimelockSpec → UInt64
  | .blockHeight value => value
  | .timestampSeconds value => value
  | .btcTime512s value => value

/-- Tags of roles read back. -/
theorem LegRole.ofTag_eq_some {tag : UInt8} {role : LegRole} :
    LegRole.ofTag tag = some role ↔ role.tag = tag := by
  constructor
  · intro h
    unfold LegRole.ofTag at h
    split at h <;> cases h <;> rfl
  · rintro rfl
    cases role <;> rfl

/-- Tags of mechanisms read back. -/
theorem LockMechanism.ofTag_eq_some {tag : UInt8} {mechanism : LockMechanism} :
    LockMechanism.ofTag tag = some mechanism ↔ mechanism.tag = tag := by
  constructor
  · intro h
    unfold LockMechanism.ofTag at h
    split at h <;> cases h <;> rfl
  · rintro rfl
    cases mechanism <;> rfl

/-- So do those of timelocks. -/
theorem timelockOfTag_eq_some {tag : UInt8} {value : UInt64} {timelock : TimelockSpec} :
    timelockOfTag tag value = some timelock ↔
      timelockTag timelock = tag ∧ timelockValue timelock = value := by
  constructor
  · intro h
    unfold timelockOfTag at h
    split at h <;> cases h <;> exact ⟨rfl, rfl⟩
  · rintro ⟨rfl, rfl⟩
    cases timelock <;> rfl

/-- Read an octet and what it is the tag of. -/
def takeTag {α : Type} (ofTag : UInt8 → Option α) : Scan TermsError α := do
  let tag ← takeU8 .truncatedEncoding
  liftExcept (okOr .unknownTag (ofTag tag))

/-- A tag octet is read. -/
theorem takeTag_spec {α : Type} {ofTag : UInt8 → Option α} {tag : α → UInt8}
    (inverse : ∀ {octet a}, ofTag octet = some a ↔ tag a = octet) :
    Parses remaining (takeTag ofTag) (fun a bs => True ∧ bs = [tag a]) := by
  refine (takeU8_spec _).last (fun octet => Parses.lift _) fun octet a => ?_
  rw [okOr_eq_ok, inverse, eq_comm]

/-- Read a role. -/
def takeRole : Scan TermsError LegRole := takeTag LegRole.ofTag

/-- Read a locking mechanism. -/
def takeMechanism : Scan TermsError LockMechanism := takeTag LockMechanism.ofTag

/-- Read a refund timelock. The tag is judged after the value was read. -/
def takeTimelock : Scan TermsError TimelockSpec := do
  let tag ← takeU8 .truncatedEncoding
  let value ← takeU64 .truncatedEncoding
  liftExcept (okOr .unknownTag (timelockOfTag tag value))

/-- A timelock is read. -/
theorem takeTimelock_spec :
    Parses remaining takeTimelock (fun timelock bs => True ∧ bs = putTimelock timelock) := by
  refine ((takeU8_spec _).bind fun tag => (takeU64_spec _).bind fun value =>
    Parses.lift _).congr fun timelock bs => ?_
  simp only [okOr_eq_ok, timelockOfTag_eq_some]
  have octets : putTimelock timelock =
      [timelockTag timelock] ++ (beBytes 8 (timelockValue timelock).toNat ++ []) := by
    cases timelock <;> simp [putTimelock, timelockTag, timelockValue]
  constructor
  · rintro ⟨tag, _, _, ⟨-, rfl⟩, ⟨value, _, _, ⟨-, rfl⟩, ⟨⟨rfl, rfl⟩, rfl⟩, rfl⟩, rfl⟩
    exact ⟨trivial, octets.symm⟩
  · rintro ⟨-, rfl⟩
    exact ⟨_, _, _, ⟨trivial, rfl⟩, ⟨_, _, _, ⟨trivial, rfl⟩, ⟨⟨rfl, rfl⟩, rfl⟩, rfl⟩, octets⟩

/-- Read a leg. -/
def takeLeg : Scan TermsError LegTerms := do
  let role ← takeRole
  let chainId ← takeArray .truncatedEncoding 32
  let assetId ← takeArray .truncatedEncoding 32
  let amount ← takeArray .truncatedEncoding 16
  let beneficiary ← takeArray .truncatedEncoding 32
  let refundTo ← takeArray .truncatedEncoding 32
  let mechanism ← takeMechanism
  let deadline ← takeTimelock
  let minConfirmations ← takeU32 .truncatedEncoding
  let maxReorgDepth ← takeU32 .truncatedEncoding
  let adapterProfileHash ← takeArray .truncatedEncoding 32
  pure ⟨role, chainId, assetId, amount, beneficiary, refundTo, mechanism, deadline,
    ⟨minConfirmations, maxReorgDepth⟩, adapterProfileHash⟩

/-- A leg is read. -/
theorem takeLeg_spec : Parses remaining takeLeg (fun leg bs => True ∧ bs = putLeg leg) := by
  refine Parses.congr (field (P := fun _ => True) LegTerms.role
    (takeTag_spec LegRole.ofTag_eq_some) fun _ =>
    field LegTerms.chainId (takeArray_spec _ 32) fun _ =>
    field LegTerms.assetId (takeArray_spec _ 32) fun _ =>
    field LegTerms.amount (takeArray_spec _ 16) fun _ =>
    field LegTerms.beneficiary (takeArray_spec _ 32) fun _ =>
    field LegTerms.refundTo (takeArray_spec _ 32) fun _ =>
    field LegTerms.mechanism (takeTag_spec LockMechanism.ofTag_eq_some) fun _ =>
    field LegTerms.deadline takeTimelock_spec fun _ =>
    field (fun leg : LegTerms => leg.finality.minConfirmations) (takeU32_spec _) fun _ =>
    field (fun leg : LegTerms => leg.finality.maxReorgDepth) (takeU32_spec _) fun _ =>
    field LegTerms.adapterProfileHash (takeArray_spec _ 32) fun _ =>
    record fun leg => ?_) fun leg bs => ?_
  · obtain ⟨role, chainId, assetId, amount, beneficiary, refundTo, mechanism, deadline, ⟨_, _⟩, _⟩ :=
      leg
    simp [and_assoc]
  · simp [putLeg, Octets.toList]

/-- The leading octets of an encoding. -/
def termsMagic : Bytes := utf8 "DOMITRM1"

/-- Read the magic and the version. -/
def takeHeading : Scan TermsError Unit := do
  let magic ← take .truncatedEncoding termsMagic.length
  liftExcept (rejectIf (magic ≠ termsMagic) .invalidMagic)
  let version ← takeU16 .truncatedEncoding
  liftExcept (rejectIf (version ≠ 1) .invalidVersion)

/-- Magic and version are read. -/
theorem takeHeading_spec : Parses remaining takeHeading
    (fun _ bs => True ∧ bs = termsMagic ++ beBytes 2 1) := by
  refine ((take_spec _ _).bind fun magic => (Parses.lift _).bind fun _ =>
    (takeU16_spec _).bind fun version => Parses.lift _).congr fun _ bs => ?_
  simp only [rejectIf_eq_ok, not_not]
  constructor
  · rintro ⟨_, _, _, ⟨-, rfl⟩, ⟨_, _, _, ⟨rfl, rfl⟩, ⟨_, _, _, ⟨-, rfl⟩, ⟨rfl, rfl⟩, rfl⟩, rfl⟩, rfl⟩
    simp
  · rintro ⟨-, rfl⟩
    exact ⟨_, _, _, ⟨rfl, rfl⟩, ⟨(), [], _, ⟨rfl, rfl⟩, ⟨1, _, [], ⟨trivial, rfl⟩, ⟨rfl, rfl⟩, rfl⟩,
      rfl⟩, by simp⟩

/-- Read the metadata. Its length is checked before it is read. -/
def takeMetadata : Scan TermsError Bytes := do
  let length ← takeU32 .truncatedEncoding
  liftExcept (rejectIf (maxMetadataBytes < length.toNat) .boundsExceeded)
  take .truncatedEncoding length.toNat

/-- Bounded metadata are read. -/
theorem takeMetadata_spec : Parses remaining takeMetadata (fun metadata bs =>
    metadata.length ≤ maxMetadataBytes ∧ bs = beBytes 4 metadata.length ++ metadata) := by
  refine (Parses.lengthFirst (n := List.length) (V := fun _ => True) (e := id) (takeU32_spec _)
    (show maxMetadataBytes < 2 ^ 32 by decide) (fun length => by simp [rejectIf_eq_ok]) fun length =>
      (take_spec _ _).congr fun metadata bs => ?_).congr fun metadata bs => ?_
  · rw [and_true, id]
  · rw [and_true, id]

namespace SettlementTerms

/-- Read the fields of an encoding. -/
def scan : Scan TermsError SettlementTerms := do
  takeHeading
  let settlementId ← takeArray .truncatedEncoding 32
  let sessionId ← takeArray .truncatedEncoding 32
  let intentHash ← takeArray .truncatedEncoding 32
  let solverId ← takeArray .truncatedEncoding 32
  let first ← takeArray .truncatedEncoding 32
  let second ← takeArray .truncatedEncoding 32
  let domLeg ← takeLeg
  let counterpartyLeg ← takeLeg
  let adaptorPointSec1 ← takeArray .truncatedEncoding 33
  let domMax ← takeArray .truncatedEncoding 16
  let counterpartyMax ← takeArray .truncatedEncoding 16
  let refundBeforeFunding ← takeBool .truncatedEncoding .unknownTag
  let evidenceRetentionBlocks ← takeU64 .truncatedEncoding
  let assurancePolicyHash ←
    takeOption .truncatedEncoding .unknownTag (takeArray .truncatedEncoding 32)
  let policyVersion ← takeU32 .truncatedEncoding
  let metadata ← takeMetadata
  pure ⟨settlementId, sessionId, intentHash, solverId, (first, second), domLeg, counterpartyLeg,
    adaptorPointSec1, ⟨domMax, counterpartyMax⟩, ⟨refundBeforeFunding, evidenceRetentionBlocks⟩,
    assurancePolicyHash, policyVersion, metadata⟩

/-- **Strict decoder** of the canonical octets. -/
def decode (bytes : Bytes) : Except TermsError SettlementTerms := do
  let terms ← decodeAll scan .trailingBytes bytes
  terms.validate
  pure terms

/-- **Terms are read field by field.** -/
theorem scan_spec : Parses remaining scan (fun terms bs =>
    terms.metadata.length ≤ maxMetadataBytes ∧ bs = terms.encodeUnchecked) := by
  refine Parses.congr (field (P := fun _ => True) (fun _ => ()) takeHeading_spec fun _ =>
    field settlementId (takeArray_spec _ 32) fun _ =>
    field sessionId (takeArray_spec _ 32) fun _ =>
    field intentHash (takeArray_spec _ 32) fun _ =>
    field solverId (takeArray_spec _ 32) fun _ =>
    field (fun terms : SettlementTerms => terms.roster.1) (takeArray_spec _ 32) fun _ =>
    field (fun terms : SettlementTerms => terms.roster.2) (takeArray_spec _ 32) fun _ =>
    field domLeg takeLeg_spec fun _ =>
    field counterpartyLeg takeLeg_spec fun _ =>
    field adaptorPointSec1 (takeArray_spec _ 33) fun _ =>
    field (fun terms : SettlementTerms => terms.feeLimit.domMax) (takeArray_spec _ 16) fun _ =>
    field (fun terms : SettlementTerms => terms.feeLimit.counterpartyMax)
      (takeArray_spec _ 16) fun _ =>
    field (fun terms : SettlementTerms => terms.recovery.refundBeforeFunding)
      (takeBool_spec _ _) fun _ =>
    field (fun terms : SettlementTerms => terms.recovery.evidenceRetentionBlocks)
      (takeU64_spec _) fun _ =>
    field assurancePolicyHash (takeOption_spec _ _ (takeArray_spec _ 32)) fun _ =>
    field policyVersion (takeU32_spec _) fun _ =>
    field metadata takeMetadata_spec fun _ =>
    record fun terms => ?_) fun terms bs => ?_
  · obtain ⟨_, _, _, _, ⟨_, _⟩, _, _, _, ⟨_, _⟩, ⟨_, _⟩, _, _, _⟩ := terms
    simp [and_assoc]
  · obtain ⟨_, _, _, _, _, _, _, _, _, _, policy, _, _⟩ := terms
    cases policy <;> simp [encodeUnchecked, optionBytes, termsMagic, boolByte, Octets.toList]

/-- Valid metadata are bounded. -/
theorem length_metadata_of_validate {terms : SettlementTerms} (valid : terms.validate = .ok ()) :
    terms.metadata.length ≤ maxMetadataBytes := by
  simp only [validate, bind_eq_ok, rejectIf_eq_ok, not_lt] at valid
  obtain ⟨-, -, -, -, -, -, -, -, -, -, bound⟩ := valid
  exact bound

/-- **The decoder of terms is exact**: it accepts the canonical octets of valid terms. -/
theorem exactCodec : ExactCodec decode (fun terms bytes => terms.canonicalBytes = .ok bytes) := by
  have accepts : ∀ bytes terms, decode bytes = .ok terms ↔
      (terms.metadata.length ≤ maxMetadataBytes ∧ bytes = terms.encodeUnchecked) ∧
        terms.validate = .ok () := by
    intro bytes terms
    simp only [decode, bind_eq_ok, scan_spec.decodeAll_eq_ok, pure_eq_ok]
    constructor
    · rintro ⟨_, scanned, _, valid, rfl⟩
      exact ⟨scanned, valid⟩
    · rintro ⟨scanned, valid⟩
      exact ⟨terms, scanned, (), valid, rfl⟩
  constructor
  · intro bytes terms
    rw [accepts, canonicalBytes_eq_ok]
    constructor
    · rintro ⟨⟨-, encoded⟩, valid⟩
      exact ⟨valid, encoded⟩
    · rintro ⟨valid, encoded⟩
      exact ⟨⟨length_metadata_of_validate valid, encoded⟩, valid⟩
  · intro bytes tail terms other decoded extended
    obtain ⟨⟨bound, rfl⟩, -⟩ := (accepts _ _).mp decoded
    obtain ⟨⟨bound', encoded⟩, -⟩ := (accepts _ _).mp extended
    exact (scan_spec.prefixCode bound bound' (by rw [encoded, List.append_nil])).2

end SettlementTerms

/-! ## Envelopes -/

/-- Read the version of an envelope. -/
def takeVersion : Scan StorePortError UInt16 := do
  let version ← takeU16 .corruptEvent
  liftExcept (rejectIf (version ≠ protocolVersion) .unknownVersion)
  pure version

/-- Only one version is read. -/
theorem takeVersion_spec : Parses remaining takeVersion
    (fun version bs => version = protocolVersion ∧ bs = beBytes 2 version.toNat) := by
  refine ((takeU16_spec _).bind fun version => (Parses.lift _).bind fun _ =>
    Parses.pure version).congr fun version bs => ?_
  simp only [rejectIf_eq_ok, not_not]
  constructor
  · rintro ⟨_, _, _, ⟨-, rfl⟩, ⟨_, _, _, ⟨known, rfl⟩, ⟨rfl, rfl⟩, rfl⟩, rfl⟩
    exact ⟨known, List.append_nil _⟩
  · rintro ⟨known, rfl⟩
    exact ⟨version, _, [], ⟨trivial, rfl⟩, ⟨(), [], [], ⟨known, rfl⟩, ⟨rfl, rfl⟩, rfl⟩,
      (List.append_nil _).symm⟩

section Envelope

variable [Digests] (ids : Id ≃ Octets 32)

/-- Canonical octets of an envelope, for identifiers of 32 octets. -/
def EventEnvelope.canonicalBytes (env : EventEnvelope) : Bytes :=
  beBytes 2 env.protocolVersion.toNat ++ env.settlementId.toList ++ env.sessionId.toList ++
    env.termsHash.toList ++ env.sourceChain.toList ++ (ids env.eventId).toList ++
    beBytes 8 env.sourceSequence.toNat ++ encodeEvent env.event

/-- Read the fields of an envelope. -/
def EventEnvelope.scan : Scan StorePortError EventEnvelope := do
  let protocolVersion ← takeVersion
  let settlementId ← takeArray .corruptEvent 32
  let sessionId ← takeArray .corruptEvent 32
  let termsHash ← takeArray .corruptEvent 32
  let sourceChain ← takeArray .corruptEvent 32
  let eventId ← takeArray .corruptEvent 32
  let sourceSequence ← takeU64 .corruptEvent
  let event ← decodeEvent
  pure ⟨protocolVersion, settlementId, sessionId, termsHash, sourceChain, ids.symm eventId,
    sourceSequence, event⟩

/-- **Strict inverse** of the canonical octets. -/
def EventEnvelope.decode (bytes : Bytes) : Except StorePortError EventEnvelope :=
  decodeAll (EventEnvelope.scan ids) .corruptEvent bytes

theorem EventEnvelope.scan_spec : Parses remaining (EventEnvelope.scan ids) (fun env bs =>
    env.protocolVersion = Settlement.protocolVersion ∧ bs = env.canonicalBytes ids) := by
  refine Parses.congr (field (P := fun _ => True) EventEnvelope.protocolVersion
    takeVersion_spec fun _ =>
    field EventEnvelope.settlementId (takeArray_spec _ 32) fun _ =>
    field EventEnvelope.sessionId (takeArray_spec _ 32) fun _ =>
    field EventEnvelope.termsHash (takeArray_spec _ 32) fun _ =>
    field EventEnvelope.sourceChain (takeArray_spec _ 32) fun _ =>
    field (fun env : EventEnvelope => ids env.eventId) (takeArray_spec _ 32) fun _ =>
    field EventEnvelope.sourceSequence (takeU64_spec _) fun _ =>
    field EventEnvelope.event decodeEvent_spec fun _ =>
    record fun env => ?_) fun env bs => ?_
  · obtain ⟨_, _, _, _, _, _, _, _⟩ := env
    simp [and_assoc, Equiv.eq_symm_apply]
  · simp [EventEnvelope.canonicalBytes]

/-- **The decoder of envelopes is exact**, for envelopes of the current version. -/
theorem EventEnvelope.exactCodec : ExactCodec (EventEnvelope.decode ids) (fun env bytes =>
    env.protocolVersion = Settlement.protocolVersion ∧ bytes = env.canonicalBytes ids) :=
  .of_prefixCode (fun _ _ => (EventEnvelope.scan_spec ids).decodeAll_eq_ok)
    (EventEnvelope.scan_spec ids).prefixCode

end Envelope

/-! ## All four -/

/-- **Settlement codecs are exact.** Each decoder accepts exactly the canonical octets: of valid
terms, of envelopes of the current version, of contexts and of effects. No accepted string is a
proper beginning of another. -/
theorem settlement_codecs_exact [Digests] (ids : Id ≃ Octets 32) :
    ExactCodec SettlementTerms.decode
      (fun terms bytes => terms.canonicalBytes = .ok bytes) ∧
    ExactCodec (EventEnvelope.decode ids) (fun env bytes =>
      env.protocolVersion = protocolVersion ∧ bytes = env.canonicalBytes ids) ∧
    ExactCodec decodeContext (fun ctx bytes => True ∧ bytes = encodeContext ctx) ∧
    ExactCodec decodeEffectPayload
      (fun effect bytes => True ∧ bytes = encodeEffectPayload effect) :=
  ⟨SettlementTerms.exactCodec, EventEnvelope.exactCodec ids, context_exactCodec,
    effect_exactCodec⟩

section Example

/-- Identifiers of 32 octets. -/
@[reducible] def octetDigests : Digests where
  blake2b256 _ := 0
  Id := Octets 32
  digest _ := 0
  idBytes := Octets.toList

attribute [local instance] octetDigests

/-- The envelopes with such identifiers. -/
theorem envelope_codec_exact_octets : ExactCodec (EventEnvelope.decode (.refl (Octets 32)))
    (fun env bytes => env.protocolVersion = protocolVersion ∧
      bytes = env.canonicalBytes (.refl (Octets 32))) :=
  (settlement_codecs_exact (.refl (Octets 32))).2.1

end Example

end DomProtocol.Settlement
