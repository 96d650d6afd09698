import DomProtocol.Settlement.Machine
import DomProtocol.Lib.Scan

/-! # Events, contexts and effects as octets (`kaystra-core`, `store_port.rs`)

Three hand-written binary formats of the settlement core: the events that are journalled, the context
of a snapshot and the payload of an effect. Integers are big-endian, fields come in a fixed order and
none is omitted. The decoders of the first two move a strict cursor over the string, that of an effect
looks at the length of what follows the tag. -/

namespace DomProtocol.Settlement

open Scan

open Parses (field record)

/-! ## Errors -/

/-- Failures of the database layer. -/
inductive StoreError where
  | storageUnavailable
  | corruptState
  | revisionConflict
  | idempotencyConflict
  | notFound
  | counterOverflow
  deriving DecidableEq

/-- Failures of the typed store. -/
inductive StorePortError where
  | storage (error : StoreError)
  | unknownVersion
  | equivocation
  | revisionConflict
  | corruptContext
  | corruptEvent
  deriving DecidableEq

/-! ## Events -/

/-- Stable tag of a state. -/
def stateTag : SettlementState → UInt16
  | .preparing => 1
  | .readyToFund => 2
  | .confirming => 3
  | .settling => 4
  | .settled => 5
  | .refunded => 6

/-- The state with a tag. -/
def stateFromTag : UInt16 → Except StorePortError SettlementState
  | 1 => .ok .preparing
  | 2 => .ok .readyToFund
  | 3 => .ok .confirming
  | 4 => .ok .settling
  | 5 => .ok .settled
  | 6 => .ok .refunded
  | _ => .error .corruptContext

theorem stateFromTag_eq_ok {tag : UInt16} {state : SettlementState} :
    stateFromTag tag = .ok state ↔ stateTag state = tag := by
  constructor
  · intro h
    unfold stateFromTag at h
    split at h <;> cases h <;> rfl
  · rintro rfl
    cases state <;> rfl

/-- Stable tag of an event kind. -/
def eventKind : SettlementEvent → UInt16
  | .refundArmed => 1
  | .fundingObserved _ => 2
  | .fundingConfirmed _ => 3
  | .fundingAbsent _ => 4
  | .claimEvidenceVerified _ => 5
  | .claimConfirmed _ => 6
  | .timelockExpired => 7
  | .refundConfirmed _ => 8
  | .reorgInvalidated _ _ => 9

/-- Octets of an evidence reference. -/
def putEvidence (reference : EvidenceRef) : Bytes :=
  reference.chainId.toList ++ reference.txId.toList ++ beBytes 4 reference.eventIndex.toNat ++
    beBytes 8 reference.blockHeight.toNat ++ reference.blockAnchor.toList

/-- What an event writes after its tag. -/
def eventBody : SettlementEvent → Bytes
  | .refundArmed | .timelockExpired => []
  | .fundingObserved evidence | .fundingConfirmed evidence | .claimEvidenceVerified evidence
  | .claimConfirmed evidence | .refundConfirmed evidence => putEvidence evidence
  | .fundingAbsent revalidationFrom => beBytes 8 revalidationFrom.toNat
  | .reorgInvalidated fromHeight oldAnchor => beBytes 8 fromHeight.toNat ++ oldAnchor.toList

/-- Octets of an event. -/
def encodeEvent (event : SettlementEvent) : Bytes :=
  beBytes 2 (eventKind event).toNat ++ eventBody event

/-- Read an evidence reference. -/
def takeEvidence : Scan StorePortError EvidenceRef := do
  let chainId ← takeArray .corruptEvent 32
  let txId ← takeArray .corruptEvent 32
  let eventIndex ← takeU32 .corruptEvent
  let blockHeight ← takeU64 .corruptEvent
  let blockAnchor ← takeArray .corruptEvent 32
  pure ⟨chainId, txId, eventIndex, blockHeight, blockAnchor⟩

theorem takeEvidence_spec :
    Parses remaining takeEvidence (fun reference bs => True ∧ bs = putEvidence reference) := by
  refine Parses.congr (field (P := fun _ => True) EvidenceRef.chainId
    (takeArray_spec _ 32) fun _ =>
    field EvidenceRef.txId (takeArray_spec _ 32) fun _ =>
    field EvidenceRef.eventIndex (takeU32_spec _) fun _ =>
    field EvidenceRef.blockHeight (takeU64_spec _) fun _ =>
    field EvidenceRef.blockAnchor (takeArray_spec _ 32) fun _ =>
    record fun reference => ?_) fun reference bs => ?_
  · obtain ⟨_, _, _, _, _⟩ := reference
    simp [and_assoc]
  · simp [putEvidence]

/-- Read an event that carries evidence. -/
def takeWitnessed (event : EvidenceRef → SettlementEvent) : Scan StorePortError SettlementEvent := do
  let evidence ← takeEvidence
  pure (event evidence)

/-- Read what follows the tag of an event. -/
def takeEventBody (kind : UInt16) : Scan StorePortError SettlementEvent :=
  match kind with
  | 1 => pure .refundArmed
  | 2 => takeWitnessed .fundingObserved
  | 3 => takeWitnessed .fundingConfirmed
  | 4 => do
    let revalidationFrom ← takeU64 .corruptEvent
    pure (.fundingAbsent revalidationFrom)
  | 5 => takeWitnessed .claimEvidenceVerified
  | 6 => takeWitnessed .claimConfirmed
  | 7 => pure .timelockExpired
  | 8 => takeWitnessed .refundConfirmed
  | 9 => do
    let fromHeight ← takeU64 .corruptEvent
    let oldAnchor ← takeArray .corruptEvent 32
    pure (.reorgInvalidated fromHeight oldAnchor)
  | _ => liftExcept (.error .corruptEvent)

/-- Read an event. -/
def decodeEvent : Scan StorePortError SettlementEvent := do
  let kind ← takeU16 .corruptEvent
  takeEventBody kind

theorem takeWitnessed_spec (event : EvidenceRef → SettlementEvent) :
    Parses remaining (takeWitnessed event)
      (fun e bs => ∃ evidence, e = event evidence ∧ bs = putEvidence evidence) := by
  refine (takeEvidence_spec.bind fun evidence => Parses.pure (event evidence)).congr fun e bs => ?_
  simp

/-- **A format chosen by its tag** accepts the events of that kind. -/
theorem takeEventBody_spec (kind : UInt16) : Parses remaining (takeEventBody kind)
    (fun event bs => (eventKind event = kind ∧ True) ∧ bs = eventBody event) := by
  unfold takeEventBody
  split
  case h_1 => exact (Parses.pure _).congr fun event bs => by cases event <;> simp [eventKind, eventBody]
  case h_7 => exact (Parses.pure _).congr fun event bs => by cases event <;> simp [eventKind, eventBody]
  case h_4 =>
    refine ((takeU64_spec _).bind fun height => Parses.pure _).congr fun event bs => ?_
    cases event <;> simp [eventKind, eventBody]
  case h_9 =>
    refine ((takeU64_spec _).bind fun height => (takeArray_spec _ 32).bind fun anchor =>
      Parses.pure _).congr fun event bs => ?_
    cases event <;> simp [eventKind, eventBody]
  case h_10 =>
    -- every event has one of the nine tags
    refine (Parses.fail _).congr fun event bs => ?_
    rename_i h1 h2 h3 h4 h5 h6 h7 h8 h9
    simp only [false_iff, not_and, and_true]
    intro same
    cases event <;> simp_all [eventKind]
  all_goals
    exact (takeWitnessed_spec _).congr fun event bs => by
      cases event <;> simp [eventKind, eventBody]

theorem decodeEvent_spec :
    Parses remaining decodeEvent (fun event bs => True ∧ bs = encodeEvent event) :=
  Parses.tagged eventKind (takeU16_spec _) takeEventBody_spec

/-! ## Contexts -/

/-- Octets of a context. -/
def encodeContext (ctx : SettlementContext) : Bytes :=
  beBytes 2 (stateTag ctx.state).toNat ++ beBytes 8 ctx.revision.toNat ++
    (match ctx.lastObservedHeight with
      | none => [0x00]
      | some height => 0x01 :: beBytes 8 height.toNat) ++
    [boolByte ctx.claimEvidenceVerified] ++ [boolByte ctx.refundPathArmed]

/-- Read a state. -/
def takeState : Scan StorePortError SettlementState := do
  let tag ← takeU16 .corruptContext
  liftExcept (stateFromTag tag)

theorem takeState_spec :
    Parses remaining takeState (fun state bs => True ∧ bs = beBytes 2 (stateTag state).toNat) := by
  refine (takeU16_spec _).last (fun tag => Parses.lift _) fun tag state => ?_
  rw [stateFromTag_eq_ok, eq_comm]

/-- Read the fields of a context. -/
def scanContext : Scan StorePortError SettlementContext := do
  let state ← takeState
  let revision ← takeU64 .corruptContext
  let lastObservedHeight ← takeOption .corruptContext .corruptContext (takeU64 .corruptContext)
  let claimEvidenceVerified ← takeBool .corruptContext .corruptContext
  let refundPathArmed ← takeBool .corruptContext .corruptContext
  pure ⟨state, revision, lastObservedHeight, claimEvidenceVerified, refundPathArmed⟩

/-- **Strict inverse** of `encodeContext`. -/
def decodeContext (bytes : Bytes) : Except StorePortError SettlementContext :=
  decodeAll scanContext .corruptContext bytes

theorem scanContext_spec :
    Parses remaining scanContext (fun ctx bs => True ∧ bs = encodeContext ctx) := by
  refine Parses.congr (field (P := fun _ => True) SettlementContext.state takeState_spec fun _ =>
    field SettlementContext.revision (takeU64_spec _) fun _ =>
    field SettlementContext.lastObservedHeight (takeOption_spec _ _ (takeU64_spec _)) fun _ =>
    field SettlementContext.claimEvidenceVerified (takeBool_spec _ _) fun _ =>
    field SettlementContext.refundPathArmed (takeBool_spec _ _) fun _ =>
    record fun ctx => ?_) fun ctx bs => ?_
  · obtain ⟨_, _, _, _, _⟩ := ctx
    simp [and_assoc]
  · obtain ⟨_, _, height, _, _⟩ := ctx
    cases height <;> simp [encodeContext, optionBytes]

/-- **The decoder of contexts is exact.** -/
theorem context_exactCodec :
    ExactCodec decodeContext (fun ctx bytes => True ∧ bytes = encodeContext ctx) :=
  .of_prefixCode (fun _ _ => scanContext_spec.decodeAll_eq_ok) scanContext_spec.prefixCode

/-! ## Effects -/

/-- Stable tag of an effect kind. -/
def effectKind : Effect → UInt16
  | .authorizeFunding => 1
  | .requestClaimConsumption _ => 2
  | .armRefundPath => 3
  | .revalidateFrom _ => 4
  | .recordTerminalOutcome _ => 5

/-- What an effect writes after its tag. -/
def effectBody : Effect → Bytes
  | .authorizeFunding | .armRefundPath => []
  | .requestClaimConsumption evidence => putEvidence evidence
  | .revalidateFrom height => beBytes 8 height.toNat
  | .recordTerminalOutcome state => beBytes 2 (stateTag state).toNat

/-- Octets of the payload of an effect. -/
def encodeEffectPayload (effect : Effect) : Bytes :=
  beBytes 2 (effectKind effect).toNat ++ effectBody effect

/-- The evidence reference that 108 octets spell, by their positions. -/
def sliceEvidence (body : Bytes) : EvidenceRef where
  chainId := Octets.ofList (body.take 32)
  txId := Octets.ofList ((body.drop 32).take 32)
  eventIndex := UInt32.ofNat (beNat ((body.drop 64).take 4))
  blockHeight := UInt64.ofNat (beNat ((body.drop 68).take 8))
  blockAnchor := Octets.ofList ((body.drop 76).take 32)

/-- **Decode the payload of an effect** by its tag and the length of its body. -/
def decodeEffectPayload (bytes : Bytes) : Except StorePortError Effect :=
  if bytes.length < 2 then .error .corruptContext
  else
    let tag := UInt16.ofNat (beNat (bytes.take 2))
    let body := bytes.drop 2
    if tag = 1 ∧ body = [] then .ok .authorizeFunding
    else if tag = 3 ∧ body = [] then .ok .armRefundPath
    else if tag = 2 ∧ body.length = 32 + 32 + 4 + 8 + 32 then
      .ok (.requestClaimConsumption (sliceEvidence body))
    else if tag = 4 ∧ body.length = 8 then .ok (.revalidateFrom (UInt64.ofNat (beNat body)))
    else if tag = 5 ∧ body.length = 2 then
      (stateFromTag (UInt16.ofNat (beNat body))).map .recordTerminalOutcome
    else .error .corruptContext

/-- The octets of a reference, cut at their positions. -/
theorem exists_append_of_length_evidence {body : Bytes} (size : body.length = 32 + 32 + 4 + 8 + 32) :
    ∃ chainId txId index height anchor : Bytes,
      body = chainId ++ (txId ++ (index ++ (height ++ anchor))) ∧ chainId.length = 32 ∧
        txId.length = 32 ∧ index.length = 4 ∧ height.length = 8 ∧ anchor.length = 32 := by
  refine ⟨body.take 32, (body.drop 32).take 32, (body.drop 64).take 4, (body.drop 68).take 8,
    body.drop 76, ?_, ?_⟩
  · conv_lhs =>
      rw [← List.take_append_drop 32 body, ← List.take_append_drop 32 (body.drop 32), List.drop_drop,
        ← List.take_append_drop 4 (body.drop (32 + 32)), List.drop_drop,
        ← List.take_append_drop 8 (body.drop (32 + 32 + 4)), List.drop_drop]
  · simp [size]

theorem putEvidence_sliceEvidence {body : Bytes} (size : body.length = 32 + 32 + 4 + 8 + 32) :
    putEvidence (sliceEvidence body) = body := by
  obtain ⟨chainId, txId, index, height, anchor, rfl, h1, h2, h3, h4, h5⟩ :=
    exists_append_of_length_evidence size
  have index_eq : (UInt32.ofNat (beNat index)).toNat = beNat index :=
    UInt32.toNat_ofNat_of_lt' ((beNat_lt index).trans_eq (by rw [h3]; rfl))
  have height_eq : (UInt64.ofNat (beNat height)).toNat = beNat height :=
    UInt64.toNat_ofNat_of_lt' ((beNat_lt height).trans_eq (by rw [h4]; rfl))
  have slices : sliceEvidence (chainId ++ (txId ++ (index ++ (height ++ anchor)))) =
      ⟨Octets.ofList chainId, Octets.ofList txId, UInt32.ofNat (beNat index),
        UInt64.ofNat (beNat height), Octets.ofList anchor⟩ := by
    simp [sliceEvidence, List.drop_append, List.drop_eq_nil_of_le,
      List.take_of_length_le, h1, h2, h3, h4, h5]
  rw [slices, putEvidence, Octets.toList_ofList h1, Octets.toList_ofList h2,
    Octets.toList_ofList h5, index_eq, height_eq, ← h3, beBytes_beNat, ← h4, beBytes_beNat]
  simp only [List.append_assoc]

theorem length_putEvidence (reference : EvidenceRef) :
    (putEvidence reference).length = 32 + 32 + 4 + 8 + 32 := by
  simp [putEvidence]

/-- The octets of effects are a prefix code: the tag tells how the body is read. -/
theorem encodeEffectPayload_prefixCode : PrefixCode (fun _ => True) encodeEffectPayload := by
  intro a b s t _ _ same
  rw [encodeEffectPayload, encodeEffectPayload, List.append_assoc, List.append_assoc] at same
  obtain ⟨kind, same⟩ := (takeU16_spec StorePortError.corruptContext).prefixCode trivial
    trivial same
  cases a <;> cases b <;> simp only [effectKind] at kind <;> try contradiction
  case authorizeFunding.authorizeFunding => exact ⟨rfl, same⟩
  case armRefundPath.armRefundPath => exact ⟨rfl, same⟩
  case requestClaimConsumption.requestClaimConsumption =>
    obtain ⟨rfl, rest⟩ := takeEvidence_spec.prefixCode trivial trivial same
    exact ⟨rfl, rest⟩
  case revalidateFrom.revalidateFrom =>
    obtain ⟨rfl, rest⟩ := (takeU64_spec StorePortError.corruptContext).prefixCode trivial
      trivial same
    exact ⟨rfl, rest⟩
  case recordTerminalOutcome.recordTerminalOutcome =>
    obtain ⟨rfl, rest⟩ := takeState_spec.prefixCode trivial trivial same
    exact ⟨rfl, rest⟩

/-- A string of at least two octets is a tag and a body. -/
theorem eq_tag_append {bytes : Bytes} (size : ¬ bytes.length < 2) :
    bytes = beBytes 2 (UInt16.ofNat (beNat (bytes.take 2))).toNat ++ bytes.drop 2 := by
  have length : (bytes.take 2).length = 2 := List.length_take_of_le (by omega)
  have tag : (UInt16.ofNat (beNat (bytes.take 2))).toNat = beNat (bytes.take 2) :=
    UInt16.toNat_ofNat_of_lt' ((beNat_lt _).trans_eq (by rw [length]; rfl))
  have octets := beBytes_beNat (bytes.take 2)
  rw [length] at octets
  rw [tag, octets, List.take_append_drop]

/-- What is decoded was encoded. -/
theorem eq_encodeEffectPayload {bytes : Bytes} {effect : Effect}
    (decoded : decodeEffectPayload bytes = .ok effect) : bytes = encodeEffectPayload effect := by
  unfold decodeEffectPayload at decoded
  by_cases size : bytes.length < 2
  · rw [if_pos size] at decoded
    cases decoded
  rw [if_neg size] at decoded
  have split := eq_tag_append size
  generalize UInt16.ofNat (beNat (bytes.take 2)) = tag at decoded split
  generalize bytes.drop 2 = body at decoded split
  simp only at decoded
  rw [split]
  split_ifs at decoded with h1 h3 h2 h4 h5
  · obtain ⟨rfl, rfl⟩ := h1
    cases decoded
    rfl
  · obtain ⟨rfl, rfl⟩ := h3
    cases decoded
    rfl
  · obtain ⟨rfl, length⟩ := h2
    cases decoded
    rw [encodeEffectPayload, effectBody, putEvidence_sliceEvidence length]
    rfl
  · obtain ⟨rfl, length⟩ := h4
    cases decoded
    have height : (UInt64.ofNat (beNat body)).toNat = beNat body :=
      UInt64.toNat_ofNat_of_lt' ((beNat_lt body).trans_eq (by rw [length]; rfl))
    rw [encodeEffectPayload, effectBody, height, ← length, beBytes_beNat]
    rfl
  · obtain ⟨rfl, length⟩ := h5
    cases tagged : stateFromTag (UInt16.ofNat (beNat body)) with
    | error e =>
      rw [tagged] at decoded
      cases decoded
    | ok state =>
      rw [tagged] at decoded
      cases decoded
      have state_eq : (UInt16.ofNat (beNat body)).toNat = beNat body :=
        UInt16.toNat_ofNat_of_lt' ((beNat_lt body).trans_eq (by rw [length]; rfl))
      rw [encodeEffectPayload, effectBody, stateFromTag_eq_ok.mp tagged, state_eq, ← length,
        beBytes_beNat]
      rfl

/-- What is encoded is decoded. -/
theorem decodeEffectPayload_encode (effect : Effect) :
    decodeEffectPayload (encodeEffectPayload effect) = .ok effect := by
  have tag : UInt16.ofNat (beNat ((encodeEffectPayload effect).take 2)) = effectKind effect := by
    rw [encodeEffectPayload, List.take_left' (length_beBytes 2 _),
      beNat_beBytes (effectKind effect).toNat_lt, UInt16.ofNat_toNat]
  have body : (encodeEffectPayload effect).drop 2 = effectBody effect := by
    rw [encodeEffectPayload, List.drop_left' (length_beBytes 2 _)]
  have size : ¬ (encodeEffectPayload effect).length < 2 := by
    rw [encodeEffectPayload, List.length_append, length_beBytes]
    omega
  -- the decoded payload encodes to the same octets, which determine the effect
  obtain ⟨decoded, hdecoded⟩ : ∃ decoded,
      decodeEffectPayload (encodeEffectPayload effect) = .ok decoded := by
    unfold decodeEffectPayload
    rw [if_neg size]
    simp only [tag, body]
    cases effect with
    | recordTerminalOutcome state =>
      have state_eq : UInt16.ofNat (beNat (beBytes 2 (stateTag state).toNat)) = stateTag state := by
        rw [beNat_beBytes (stateTag state).toNat_lt, UInt16.ofNat_toNat]
      simp [effectKind, effectBody, state_eq, stateFromTag_eq_ok.mpr rfl, Except.map]
    | _ => simp [effectKind, effectBody, length_putEvidence]
  have same := eq_encodeEffectPayload hdecoded
  rw [hdecoded, encodeEffectPayload_prefixCode.injective trivial trivial same]

/-- **The decoder of effects is exact.** -/
theorem effect_exactCodec :
    ExactCodec decodeEffectPayload (fun effect bytes => True ∧ bytes = encodeEffectPayload effect) := by
  refine .of_prefixCode (fun bytes effect => ?_) encodeEffectPayload_prefixCode
  constructor
  · intro decoded
    exact ⟨trivial, eq_encodeEffectPayload decoded⟩
  · rintro ⟨-, rfl⟩
    exact decodeEffectPayload_encode effect

end DomProtocol.Settlement
