import DomProtocol.Settlement.Terms
import DomProtocol.Settlement.Codec

/-! # The durable settlement store (`store`, `settlement.rs` and `kaystra-core`, `store_port.rs`)

For each settlement its terms, its snapshot, its journal, the evidence it has observed, its cursors,
its terminal outcome and its late evidence, and one outbox for the effects of all settlements. An
operation is one database transaction: on an error nothing has been written. A `StoreError` is what
the database layer reports, a `StorePortError` what the typed port above it makes of that.

Identifiers are digests of canonical octets. The class **`Digests`** gives them an abstract type,
since no function into strings of a fixed length is injective, and **`LawfulDigests`** says that
they do not collide. Byte strings in the tables are the values they encode. Counters and heights are
signed 64-bit integers in the database, and a value that does not fit is refused with
`counterOverflow`. -/

namespace DomProtocol.Settlement

/-! ## Digests and envelopes -/

/-- **Digests** of octets as identifiers. -/
class Digests extends Blake2b where
  Id : Type
  [idDecidableEq : DecidableEq Id]
  digest : Bytes → Id
  idBytes : Id → Bytes

export Digests (Id digest idBytes)

section Derivation

variable [Digests]

instance : DecidableEq Id := Digests.idDecidableEq

/-- The digest of octets in a domain. -/
def digestIn (domain : String) (bytes : Bytes) : Id := digest (utf8 domain ++ bytes)

/-- Deterministic identifier of an event of a settlement. -/
def deriveEventId (settlementId : SettlementId) (event : SettlementEvent) : Id :=
  digestIn "DOM-INTEROP/EVENT-ID/V1\x00" (settlementId.toList ++ encodeEvent event)

/-- The journal identity of an event applied again at a revision. -/
def refreshEventId (eventId : Id) (resultingRevision : UInt64) : Id :=
  digestIn "DOM-INTEROP/F2-REFRESH/V1\x00" (idBytes eventId ++ beBytes 8 resultingRevision.toNat)

/-- The hash of a context, written beside its journal row. -/
def contextHash (ctx : SettlementContext) : Id :=
  digestIn "DOM-INTEROP/CONTEXT/V1\x00" (encodeContext ctx)

/-- The hash of the payload of an effect. -/
def effectPayloadHash (effect : Effect) : Id :=
  digestIn "DOM-INTEROP/EFFECT-PAYLOAD/V1\x00" (encodeEffectPayload effect)

/-- Deterministic identifier of an effect of an event. -/
def deriveEffectId (settlementId : SettlementId) (sourceEventId : Id) (effect : Effect) : Id :=
  digestIn "DOM-INTEROP/EFFECT/V1\x00" (settlementId.toList ++ (idBytes sourceEventId ++
    (beBytes 2 (effectKind effect).toNat ++ idBytes (effectPayloadHash effect))))

/-- **Digests do not collide**, and the octets of an identifier end where they end. -/
class LawfulDigests : Prop where
  digest_inj : ∀ {x y : Bytes}, digest x = digest y → x = y
  idBytes_prefixCode : PrefixCode (fun _ : Id => True) idBytes

namespace LawfulDigests

variable [LawfulDigests]

/-- Digests in one domain do not collide. -/
theorem digestIn_inj {domain : String} {x y : Bytes} (same : digestIn domain x = digestIn domain y) :
    x = y :=
  List.append_cancel_left (digest_inj same)

/-- An event identifier determines the settlement and the event. -/
theorem deriveEventId_inj {i j : SettlementId} {e f : SettlementEvent}
    (same : deriveEventId i e = deriveEventId j f) : i = j ∧ e = f := by
  obtain ⟨ids, events⟩ := List.append_inj (digestIn_inj same) (by simp)
  exact ⟨Octets.toList_injective ids, decodeEvent_spec.prefixCode.injective trivial trivial events⟩

/-- An effect identifier determines the settlement, the source event and the effect. -/
theorem deriveEffectId_inj {i j : SettlementId} {a b : Id} {e f : Effect}
    (same : deriveEffectId i a e = deriveEffectId j b f) : i = j ∧ a = b ∧ e = f := by
  obtain ⟨ids, sources⟩ := List.append_inj (digestIn_inj same) (by simp)
  obtain ⟨rfl, kinds⟩ := idBytes_prefixCode trivial trivial sources
  obtain ⟨-, payloads⟩ := List.append_inj kinds (by simp)
  have hashes := idBytes_prefixCode.injective trivial trivial payloads
  exact ⟨Octets.toList_injective ids, rfl,
    encodeEffectPayload_prefixCode.injective trivial trivial (digestIn_inj hashes)⟩

end LawfulDigests

end Derivation

/-- Digests without a hash function, for examples: a string is its own identifier, and where it is
hashed again each octet is marked and the end is. -/
@[reducible] def freeDigests : Digests where
  blake2b256 _ := 0
  Id := Bytes
  digest bytes := bytes
  idBytes bytes := bytes.flatMap (fun octet => [1, octet]) ++ [0]

theorem freeDigests_lawful : @LawfulDigests freeDigests := by
  refine @LawfulDigests.mk freeDigests (fun same => same) ?_
  intro a b s t _ _ same
  induction a generalizing b with
  | nil =>
    cases b with
    | nil => exact ⟨rfl, (List.cons.inj same).2⟩
    | cons y b => cases (List.cons.inj same).1
  | cons x a ih =>
    cases b with
    | nil => cases (List.cons.inj same).1
    | cons y b =>
      obtain ⟨-, marked⟩ := List.cons.inj same
      obtain ⟨rfl, rest⟩ := List.cons.inj marked
      obtain ⟨rfl, tails⟩ := ih rest
      exact ⟨rfl, tails⟩

variable [Digests]

/-- Frozen protocol version of the envelopes. -/
def protocolVersion : UInt16 := 1

/-- Neutral event envelope delivered to the engine. -/
structure EventEnvelope where
  protocolVersion : UInt16
  settlementId : SettlementId
  sessionId : SessionId
  termsHash : Digest32
  sourceChain : ChainId
  eventId : Id
  sourceSequence : UInt64
  event : SettlementEvent
  deriving DecidableEq

/-- One outbox effect derived from an accepted transition. -/
structure OutboxEffect where
  effectId : Id
  settlementId : SettlementId
  sourceEventId : Id
  kind : Effect
  payloadHash : Id

/-- The outbox entry of one effect. -/
def OutboxEffect.derive (settlementId : SettlementId) (sourceEventId : Id) (effect : Effect) :
    OutboxEffect :=
  ⟨deriveEffectId settlementId sourceEventId effect, settlementId, sourceEventId, effect,
    effectPayloadHash effect⟩

/-- The outbox entries of one accepted transition, in order. -/
def effectsToOutbox (env : EventEnvelope) (effects : List Effect) : List OutboxEffect :=
  effects.map (OutboxEffect.derive env.settlementId env.eventId)

/-! ## Rows -/

/-- Cursor update committed with an accepted event. -/
structure CursorUpdate where
  chainId : ChainId
  cursorBytes : Bytes
  anchorHeight : Option UInt64
  anchorHash : Option Digest32

/-- Materialized cursor of one settlement on one chain. -/
structure StoredCursor where
  cursorBytes : Bytes
  anchorHeight : Option UInt64
  anchorHash : Option Digest32
  revision : UInt64

/-- Status of one durable evidence row. -/
inductive EvidenceStatus where
  | parked
  | applied
  | invalidated
  deriving DecidableEq

/-- One row of observed evidence. -/
structure EvidenceRow where
  evidenceId : Id
  reference : EvidenceRef
  status : EvidenceStatus
  deriving DecidableEq

/-- One journal row. -/
structure JournalRow where
  seq : UInt64
  expectedRevision : UInt64
  resultingRevision : UInt64
  eventId : Id
  envelope : EventEnvelope
  contextHash : Id

/-- The terminal outcome of a settlement. -/
structure TerminalRow where
  outcome : SettlementState
  sourceEventId : Id
  finalizedRevision : UInt64
  deriving DecidableEq

/-- Evidence that arrived after a terminal outcome. -/
structure LateRow where
  evidenceId : Id
  terminal : SettlementState

/-- **The rows of one settlement.** The snapshot stores the revision and the state beside the
encoded context. -/
structure Rows where
  terms : SettlementTerms
  termsHash : Digest32
  revision : UInt64
  state : SettlementState
  context : SettlementContext
  lastEventSeq : UInt64
  journal : List JournalRow
  evidence : List EvidenceRow
  cursors : ChainId → Option StoredCursor
  terminal : Option TerminalRow
  late : List LateRow

/-- Who dispatches an outbox entry. -/
inductive DispatchClass where
  | runnerPayload
  | externalCustody
  deriving DecidableEq

/-- One row of the durable outbox. -/
structure OutboxRow where
  settlementId : SettlementId
  effectId : Id
  sourceSeq : UInt64
  payload : Effect
  payloadHash : Id
  completed : Bool
  attempts : UInt64
  leaseUntil : Option Int
  dispatchClass : DispatchClass
  deriving DecidableEq

/-- **How the database orders the entries of a query**: by source sequence, ties in any order. -/
structure OutboxOrder where
  sort : List OutboxRow → List OutboxRow
  perm : ∀ rows, (sort rows).Perm rows
  sorted : ∀ rows, (sort rows).Pairwise fun a b => a.sourceSeq ≤ b.sourceSeq

/-- **The store.** -/
structure Store where
  settlement : SettlementId → Option Rows
  sessions : SessionId → Option SettlementId
  outbox : List OutboxRow
  order : OutboxOrder

/-! ## Results -/

/-- The error of a commit as the port reports it. -/
def mapCommitErr : StoreError → StorePortError
  | .idempotencyConflict => .equivocation
  | .revisionConflict => .revisionConflict
  | other => .storage other

/-- Typed snapshot: binding and decoded context. -/
structure SettlementSnapshot where
  settlementId : SettlementId
  sessionId : SessionId
  termsHash : Digest32
  context : SettlementContext
  lastEventSeq : UInt64

/-- Result of a commit attempt. -/
inductive CommitResult where
  | committed (revision : UInt64)
  | duplicateSameBytes
  deriving DecidableEq

/-- Result of parking evidence. -/
inductive ParkResult where
  | parked
  | alreadyParked
  deriving DecidableEq

/-- One claimed outbox entry. -/
structure ClaimedEffect where
  settlementId : SettlementId
  effectId : Id
  kind : Effect
  payloadHash : Id
  attempts : UInt64
  deriving DecidableEq

/-! ## Reading -/

/-- Refuse a number that does not fit a signed 64-bit column. -/
def fitsI64 (value : UInt64) : Except StoreError Unit :=
  rejectIf (2 ^ 63 ≤ value.toNat) .counterOverflow

namespace Rows

/-- The journal row of an event identifier. -/
def journalled (rows : Rows) (eventId : Id) : Option JournalRow :=
  rows.journal.find? (·.eventId = eventId)

/-- The evidence row of an identifier. -/
def evidenceRow (rows : Rows) (evidenceId : Id) : Option EvidenceRow :=
  rows.evidence.find? (·.evidenceId = evidenceId)

/-- Canonical chain position of evidence: height, event index, transaction. -/
def canonicalKey (reference : EvidenceRef) : UInt64 × UInt32 × Digest32 :=
  (reference.blockHeight, reference.eventIndex, reference.txId)

/-- Lexicographic order of chain positions. -/
def canonicalLe (a b : UInt64 × UInt32 × Digest32) : Bool :=
  a.1 < b.1 || (a.1 = b.1 && (a.2.1 < b.2.1 || (a.2.1 = b.2.1 && a.2.2 ≤ b.2.2)))

/-- Evidence rows with one status in canonical chain order. -/
def evidenceWith (rows : Rows) (status : EvidenceStatus) : List EvidenceRow :=
  (rows.evidence.filter (·.status = status)).insertionSort
    fun a b => canonicalLe (canonicalKey a.reference) (canonicalKey b.reference)

end Rows

namespace Store

/-- A store without settlements. -/
def empty (order : OutboxOrder) : Store := ⟨fun _ => none, fun _ => none, [], order⟩

variable (s : Store)

/-- Replace the rows of a settlement. -/
def setRows (id : SettlementId) (rows : Rows) : Store :=
  { s with settlement := Function.update s.settlement id (some rows) }

/-- Load the snapshot of a settlement. -/
def load (id : SettlementId) : Except StorePortError (Option SettlementSnapshot) :=
  match s.settlement id with
  | none => .ok none
  | some rows => do
    rejectIf (rows.revision ≠ rows.context.revision ∨ rows.state ≠ rows.context.state)
      .corruptContext
    pure (some ⟨id, rows.terms.sessionId, rows.termsHash, rows.context, rows.lastEventSeq⟩)

/-- The event journalled under an identifier. -/
def committedEvent (id : SettlementId) (eventId : Id) : Option EventEnvelope :=
  (s.settlement id).bind fun rows => (rows.journalled eventId).map (·.envelope)

/-- The frozen terms, with the hash they were bound to. -/
def terms (id : SettlementId) : Except StorePortError (Option (SettlementTerms × Digest32)) :=
  match s.settlement id with
  | none => .ok none
  | some rows => do
    let termsHash ← mapError (fun _ => .corruptContext) rows.terms.termsHash
    rejectIf (termsHash ≠ rows.termsHash ∨ rows.terms.settlementId ≠ id) .corruptContext
    pure (some (rows.terms, rows.termsHash))

/-- The rows of a journal continue a sequence. -/
def contiguous : UInt64 → List JournalRow → Bool
  | _, [] => true
  | expected, row :: rest => row.seq = expected && contiguous (expected + 1) rest

/-- The journal of a settlement; a gap is corruption. -/
def readJournal (id : SettlementId) : Except StorePortError (List JournalRow) := do
  let rows := (s.settlement id).elim [] (·.journal)
  rejectIf (contiguous 1 rows = false) (.storage .corruptState)
  pure rows

/-- Evidence rows with the given status, in canonical chain order. -/
def evidence (id : SettlementId) (status : EvidenceStatus) : List EvidenceRow :=
  (s.settlement id).elim [] (·.evidenceWith status)

/-- Durable cursor of a settlement on a chain. -/
def cursor (id : SettlementId) (chain : ChainId) : Option StoredCursor :=
  (s.settlement id).bind (·.cursors chain)

/-- Terminal outcome of a settlement. -/
def terminal (id : SettlementId) : Option TerminalRow := (s.settlement id).bind (·.terminal)

/-! ## Writing -/

/-- The rows of a new settlement. -/
def newRows (terms : SettlementTerms) (termsHash : Digest32) : Rows where
  terms := terms
  termsHash := termsHash
  revision := 0
  state := SettlementContext.new.state
  context := SettlementContext.new
  lastEventSeq := 0
  journal := []
  evidence := []
  cursors _ := none
  terminal := none
  late := []

/-- Create a settlement, or return the snapshot of an identical one. Only valid terms have canonical
octets, and a session belongs to one settlement. -/
def create (terms : SettlementTerms) : Except StorePortError (SettlementSnapshot × Store) := do
  let termsHash ← mapError (fun _ => .corruptContext) terms.termsHash
  match s.settlement terms.settlementId with
  | some rows => do
    rejectIf (rows.terms ≠ terms ∨ rows.termsHash ≠ termsHash) .equivocation
    pure (⟨terms.settlementId, terms.sessionId, rows.termsHash, rows.context,
      rows.lastEventSeq⟩, s)
  | none => do
    rejectIf (s.sessions terms.sessionId ≠ none) (.storage .storageUnavailable)
    pure (⟨terms.settlementId, terms.sessionId, termsHash, .new, 0⟩,
      { s.setRows terms.settlementId (newRows terms termsHash) with
        sessions := Function.update s.sessions terms.sessionId (some terms.settlementId) })

/-- An identifier has an invalidated row. -/
def invalidatedRow (evidence : List EvidenceRow) (evidenceId : Id) : Bool :=
  evidence.any fun row => row.evidenceId = evidenceId && row.status = .invalidated

/-- Turn an invalidated row of an identifier back to applied. -/
def reaffirm (evidence : List EvidenceRow) (evidenceId : Id) : List EvidenceRow :=
  evidence.map fun row =>
    if row.evidenceId = evidenceId ∧ row.status = .invalidated then { row with status := .applied }
    else row

/-- Write the evidence row of a commit: a new row, or the status of the one that is there. -/
def upsertEvidence (evidence : List EvidenceRow) (evidenceId : Id) (reference : EvidenceRef) :
    List EvidenceRow :=
  if evidence.any (·.evidenceId = evidenceId) then
    evidence.map fun row =>
      if row.evidenceId = evidenceId then { row with status := .applied } else row
  else evidence ++ [⟨evidenceId, reference, .applied⟩]

/-- One transition to commit. -/
structure Commit where
  expectedRevision : UInt64
  env : EventEnvelope
  transition : Transition
  effects : List OutboxEffect
  cursor : Option CursorUpdate

/-- The journal identity of a commit: that of the event, or of its refresh. -/
def Commit.journalId (req : Commit) (reapplying : Bool) : Id :=
  if reapplying then refreshEventId req.env.eventId req.transition.next.revision
  else req.env.eventId

/-- The cursor row a commit writes. A height that does not fit the column is stored as none. -/
def Commit.cursorRow (req : Commit) (cursor : CursorUpdate) : StoredCursor :=
  ⟨cursor.cursorBytes, cursor.anchorHeight.filter (·.toNat < 2 ^ 63), cursor.anchorHash,
    req.transition.next.revision⟩

/-- Enqueue one effect. A row that exists is a constraint failure, unless the event is applied
again. -/
def enqueue (outbox : List OutboxRow) (settlementId : SettlementId) (seq : UInt64)
    (reapplying : Bool) (effect : OutboxEffect) : Except StoreError (List OutboxRow) :=
  if outbox.any fun row => row.settlementId = settlementId && row.effectId = effect.effectId then
    if reapplying then .ok outbox else .error .storageUnavailable
  else
    .ok (outbox ++ [⟨settlementId, effect.effectId, seq, effect.kind, effect.payloadHash, false, 0,
      none, .runnerPayload⟩])

/-- The rows after a commit that was not refused: journal, snapshot, evidence, cursor, terminal. -/
def commitRows (rows : Rows) (reapplying : Bool) (req : Commit) : Rows :=
  let next := req.transition.next
  let seq := rows.lastEventSeq + 1
  { rows with
    journal := rows.journal ++ [⟨seq, req.expectedRevision, next.revision,
      req.journalId reapplying, req.env, contextHash next⟩]
    revision := next.revision
    state := next.state
    context := next
    lastEventSeq := seq
    evidence := match acceptedEvidence req.env.event with
      | some reference => upsertEvidence rows.evidence req.env.eventId reference
      | none => rows.evidence
    cursors := match req.cursor with
      | some cursor => Function.update rows.cursors cursor.chainId (some (req.cursorRow cursor))
      | none => rows.cursors
    terminal :=
      if next.state.isTerminal then some ⟨next.state, req.env.eventId, next.revision⟩
      else rows.terminal }

/-- The evidence of a commit has a height that fits its column. -/
def Commit.checkHeight (req : Commit) : Except StoreError Unit :=
  match acceptedEvidence req.env.event with
  | some reference => fitsI64 reference.blockHeight
  | none => .ok ()

/-- The checks and the writes of a commit after the event was deduplicated. -/
def append (rows : Rows) (reapplying : Bool) (req : Commit) :
    Except StoreError (CommitResult × Store) := do
  let id := req.env.settlementId
  let next := req.transition.next
  rejectIf (rows.revision ≠ req.expectedRevision) .revisionConflict
  rejectIf (2 ^ 63 ≤ rows.lastEventSeq.toNat + 1) .counterOverflow
  let seq := rows.lastEventSeq + 1
  fitsI64 req.expectedRevision
  fitsI64 next.revision
  -- the journal is unique in the sequence and in the event identifier
  rejectIf (∃ row ∈ rows.journal, row.seq = seq ∨ row.eventId = req.journalId reapplying)
    .storageUnavailable
  req.checkHeight
  let outbox ← req.effects.foldlM (fun outbox effect => enqueue outbox id seq reapplying effect)
    s.outbox
  rejectIf (next.state.isTerminal = true ∧ rows.terminal ≠ none) .storageUnavailable
  pure (.committed next.revision,
    { s.setRows id (commitRows rows reapplying req) with outbox := outbox })

/-- **One transition in one transaction.** A redelivered event commits nothing, unless its evidence
had been invalidated: then the row is applied again and the transition with it. -/
def commitInner (req : Commit) : Except StoreError (CommitResult × Store) :=
  match s.settlement req.env.settlementId with
  | none => .error .notFound
  | some rows =>
    match rows.journalled req.env.eventId with
    | none => s.append rows false req
    | some row =>
      if row.envelope ≠ req.env then .error .idempotencyConflict
      else if (acceptedEvidence req.env.event).isSome ∧
          invalidatedRow rows.evidence req.env.eventId then
        s.append { rows with evidence := reaffirm rows.evidence req.env.eventId } true req
      else .ok (.duplicateSameBytes, s)

/-- Commit one accepted transition. -/
def commitTransition (req : Commit) : Except StorePortError (CommitResult × Store) := do
  rejectIf (req.env.protocolVersion ≠ Settlement.protocolVersion) .unknownVersion
  mapError mapCommitErr (s.commitInner req)

/-- Park evidence the machine cannot accept yet. -/
def parkEvidence (id : SettlementId) (evidenceId : Id) (reference : EvidenceRef) :
    Except StorePortError (ParkResult × Store) :=
  match s.settlement id with
  | none => .error (.storage .notFound)
  | some rows =>
    match rows.evidenceRow evidenceId with
    | some row =>
      if row.reference = reference then .ok (.alreadyParked, s) else .error .equivocation
    | none => do
      mapError mapCommitErr (fitsI64 reference.blockHeight)
      pure (.parked, s.setRows id
        { rows with evidence := rows.evidence ++ [⟨evidenceId, reference, .parked⟩] })

/-- Mark every evidence row at or above a height as invalidated; the number of rows moved. -/
def invalidateEvidenceFrom (id : SettlementId) (fromHeight : UInt64) :
    Except StorePortError (Nat × Store) := do
  mapError StorePortError.storage (fitsI64 fromHeight)
  let hit := fun row : EvidenceRow =>
    fromHeight ≤ row.reference.blockHeight && row.status ≠ .invalidated
  pure (match s.settlement id with
    | none => (0, s)
    | some rows => (rows.evidence.countP hit, s.setRows id
        { rows with
          evidence := rows.evidence.map fun row =>
            if hit row then { row with status := .invalidated } else row }))

/-- Promote the evidence row of an event from invalidated to applied; the number of rows moved. -/
def reaffirmEvidence (id : SettlementId) (evidenceId : Id) : Nat × Store :=
  match s.settlement id with
  | none => (0, s)
  | some rows => (if invalidatedRow rows.evidence evidenceId then 1 else 0,
      s.setRows id { rows with evidence := reaffirm rows.evidence evidenceId })

/-- Record late evidence by its identifier; a second record is ignored. -/
def recordLateEvidence (id : SettlementId) (evidenceId : Id) (terminal : SettlementState) :
    Except StorePortError Store :=
  match s.settlement id with
  | none => .error (.storage .storageUnavailable)
  | some rows =>
    if rows.late.any (·.evidenceId = evidenceId) then .ok s
    else .ok (s.setRows id { rows with late := rows.late ++ [⟨evidenceId, terminal⟩] })

/-! ## The outbox -/

/-- An entry may be handed to a runner at a time. -/
def claimable (now : Int) (row : OutboxRow) : Bool :=
  !row.completed && row.dispatchClass = .runnerPayload &&
    (match row.leaseUntil with
      | none => true
      | some leaseUntil => leaseUntil ≤ now)

/-- The entries that may be handed out at a time, by source sequence. The query names no
settlement. -/
def ready (now : Int) : List OutboxRow := s.order.sort (s.outbox.filter (claimable now))

/-- What a runner is handed for an entry. -/
def claim (row : OutboxRow) : Except StoreError ClaimedEffect := do
  let attempts ← okOr .counterOverflow (checkedAdd row.attempts 1)
  pure ⟨row.settlementId, row.effectId, row.payload, row.payloadHash, attempts⟩

/-- **Claim dispatchable entries**: each claim sets the lease and counts an attempt. -/
def readyOutbox (now leaseMs : Int) (max : UInt32) :
    Except StorePortError (List ClaimedEffect × Store) := do
  let rows := (s.ready now).take max.toNat
  let claimed ← mapError StorePortError.storage (rows.mapM claim)
  rejectIf (now + leaseMs < -2 ^ 63 ∨ 2 ^ 63 ≤ now + leaseMs) (.storage .counterOverflow)
  let taken := fun row : OutboxRow =>
    claimed.any fun effect =>
      row.settlementId = effect.settlementId && row.effectId = effect.effectId
  pure (claimed, { s with
    outbox := s.outbox.map fun row =>
      if taken row then
        { row with leaseUntil := some (now + leaseMs), attempts := row.attempts + 1 }
      else row })

/-- Mark one effect completed. The row is found by its effect identifier alone. -/
def completeEffect (effectId expectedPayloadHash : Id) : Except StorePortError Store :=
  match s.outbox.find? (·.effectId = effectId) with
  | none => .error (.storage .notFound)
  | some row => do
    rejectIf (row.payloadHash ≠ expectedPayloadHash) .equivocation
    rejectIf (row.dispatchClass ≠ .runnerPayload) .equivocation
    pure (if row.completed then s
      else { s with
        outbox := s.outbox.map fun row =>
          if row.effectId = effectId then { row with completed := true, leaseUntil := none }
          else row })

end Store

end DomProtocol.Settlement
