import DomProtocol.Settlement.Ingest

/-! # The settlement engine (`kaystra-core`, `settlement_engine.rs`)

An **`Engine`** drives one settlement. One **`tick`** retries the parked envelopes, scans the chain,
ingests what the scan returned, derives the policy events of the frozen terms from the durable state
and dispatches the outbox. **`openEngine`** opens an engine over an existing settlement and recovers
it: the journal is replayed and compared with the snapshot, scanning resumes at the durable cursor,
and the parked envelopes are rebuilt from their rows. The report of a tick, which the source passes
around by reference, is a field of the engine here. -/

namespace DomProtocol.Settlement

variable [Digests]

/-! ## The engine's memory -/

/-- Policy derived from the frozen terms. -/
structure EnginePolicy where
  minConfirmations : UInt64
  maxReorgDepth : UInt64
  refundNotBeforeHeight : UInt64
  deriving DecidableEq

/-- Report of one tick. -/
structure TickReport where
  recordsSeen : Nat := 0
  committed : Nat := 0
  duplicates : Nat := 0
  parked : Nat := 0
  late : Nat := 0
  effectsDispatched : Nat := 0
  effectsCompleted : Nat := 0
  effectsRejected : Nat := 0
  conflicts : Nat := 0
  state : Option SettlementState := none

/-- **The memory of an engine for one settlement.** -/
structure Engine where
  chainId : ChainId
  settlementId : SettlementId
  terms : SettlementTerms
  termsHash : Digest32
  policy : EnginePolicy
  scanCursor : ChainCursor
  pendingRefunds : List EvidenceRef
  reorder : ReorderBuffer
  timelockCommitted : Bool
  leaseMs : Int
  maxEffectsPerTick : UInt32
  report : TickReport

/-- Engine failures. -/
inductive SettlementEngineError where
  | unknownSettlement
  | chainMismatch
  | unsupportedTimelockDomain
  | chainSource (error : ChainSourceError)
  | recoveryDivergence (message : String)
  | unreconstructableParkedEvidence
  | ingest (error : IngestError)
  | store (error : StorePortError)
  deriving DecidableEq

/-- An engine's action. -/
abbrev EngineAct (α : Type) := Client Engine SettlementEngineError α

/-- Maximum policy ingests per tick. -/
def maxPolicyIngestsPerTick : Nat := 16

variable {μ : Type}

/-- Call the store from the engine. -/
def askStore (op : StoreOp) : Client μ SettlementEngineError op.Result :=
  Act.mapError SettlementEngineError.store (storeCall op)

/-- Call the chain source from the engine. -/
def askChain (op : ChainOp) : Client μ SettlementEngineError op.Result :=
  Act.mapError SettlementEngineError.chainSource (chainCall op)

/-! ## Envelopes -/

/-- Source sequence of an event: the height it is about. -/
def sourceSequence : SettlementEvent → UInt64
  | .fundingObserved evidence => evidence.blockHeight
  | .fundingConfirmed evidence => evidence.blockHeight
  | .claimEvidenceVerified evidence => evidence.blockHeight
  | .claimConfirmed evidence => evidence.blockHeight
  | .refundConfirmed evidence => evidence.blockHeight
  | .fundingAbsent revalidationFrom => revalidationFrom
  | .reorgInvalidated fromHeight _ => fromHeight
  | .refundArmed => 0
  | .timelockExpired => 0

/-- **The canonical envelope of an event**: every field is a function of the settlement and the
event. -/
def envelopeFor (settlementId : SettlementId) (sessionId : SessionId) (termsHash : Digest32)
    (sourceChain : ChainId) (event : SettlementEvent) : EventEnvelope where
  protocolVersion := protocolVersion
  settlementId := settlementId
  sessionId := sessionId
  termsHash := termsHash
  sourceChain := sourceChain
  eventId := deriveEventId settlementId event
  sourceSequence := sourceSequence event
  event := event

namespace Engine

variable (engine : Engine)

/-- The canonical envelope of an event of the engine's settlement. -/
def envelopeFor (event : SettlementEvent) : EventEnvelope :=
  Settlement.envelopeFor engine.settlementId engine.terms.sessionId engine.termsHash
    engine.chainId event

/-- The cursor to persist for a scanner position. -/
def cursorUpdate (cursor : ChainCursor) : CursorUpdate :=
  ⟨engine.chainId, cursor.bytes, some cursor.height, some cursor.anchor⟩

/-- Enough blocks confirm a height under a tip. -/
def isFinal (height tip : UInt64) : Bool :=
  height ≤ tip &&
    engine.policy.minConfirmations.toNat ≤ min (tip.toNat - height.toNat + 1) (2 ^ 64 - 1)

/-- The lowest height of a pending refund, or the largest height if there is none. -/
def lowestPending : UInt64 :=
  (engine.pendingRefunds.map (·.blockHeight)).foldl min (.ofNat (2 ^ 64 - 1))

end Engine

/-! ## Ingestion -/

/-- Count an ingest result. -/
def TickReport.count (report : TickReport) : IngestResult → TickReport
  | .committed _ => { report with committed := report.committed + 1 }
  | .duplicate => { report with duplicates := report.duplicates + 1 }
  | .parkedForReorder => { report with parked := report.parked + 1 }
  | .lateNoEconomicEffect => { report with late := report.late + 1 }

/-- Change the report. -/
def modifyReport (f : TickReport → TickReport) : EngineAct Unit :=
  Act.modify fun engine => { engine with report := f engine.report }

/-- Run an action of the reorder buffer on the engine's buffer. -/
def buffered {ε α : Type} (x : Client ReorderBuffer ε α) : Client Engine ε α :=
  Act.zoom Engine.reorder (fun reorder engine => { engine with reorder := reorder }) x

/-- Try an ingest up to a number of times, as long as another writer wins the revision check. -/
def ingestTries (event : SettlementEvent) (cursor : Option CursorUpdate) :
    Nat → EngineAct (Option IngestResult)
  | 0 => pure none
  | tries + 1 => do
    let engine ← Act.get
    let outcome : Except IngestError IngestResult ←
      Act.attempt (buffered (ReorderBuffer.ingest (engine.envelopeFor event) cursor))
    match outcome with
    | .ok result => do
      modifyReport (·.count result)
      pure (some result)
    | .error (.store .revisionConflict) => do
      modifyReport fun report => { report with conflicts := report.conflicts + 1 }
      ingestTries event cursor tries
    | .error other => Act.fail (.ingest other)

/-- **Ingest one event**, retrying once after a lost revision check; `none` if it was lost twice. -/
def ingest (event : SettlementEvent) (cursor : Option CursorUpdate) :
    EngineAct (Option IngestResult) :=
  ingestTries event cursor 2

/-- Report that the pre-signed refund is durable. -/
def armRefund : EngineAct (Option IngestResult) := do
  modifyReport fun _ => {}
  ingest .refundArmed none

/-- Current durable snapshot. -/
def snapshot : EngineAct SettlementSnapshot := do
  let engine ← Act.get
  let loaded : Option SettlementSnapshot ← askStore (.load engine.settlementId)
  match loaded with
  | none => Act.fail .unknownSettlement
  | some snapshot => pure snapshot

/-! ## Chain records -/

/-- Highest position whose consequences are all durable, if any may be persisted. -/
def safeCursor (scannedTo : ChainCursor) : EngineAct (Option ChainCursor) := do
  let engine ← Act.get
  let lowestPending := engine.lowestPending
  if lowestPending = .ofNat (2 ^ 64 - 1) then pure (some scannedTo)
  else if lowestPending = 0 then pure none
  else if scannedTo.height ≤ lowestPending - 1 then pure (some scannedTo)
  else do
    let cursor : ChainCursor ← askChain (.cursorAtFromScan (lowestPending - 1) scannedTo)
    pure (some cursor)

/-- A record that is ingested on sight. -/
def ChainRecord.isRefund : ChainRecord → Bool
  | refund _ => true
  | _ => false

/-- Index of the last record that may carry the cursor forward. -/
def lastIngestible (records : List ChainRecord) : Option Nat :=
  (records.reverse.findIdx? fun record => !record.isRefund).map (records.length - 1 - ·)

/-- The position to persist with a record: only the last one of a batch may advance the cursor. -/
def advancedCursor (mayAdvance : Bool) (scannedTo : ChainCursor) : EngineAct (Option ChainCursor) :=
  if mayAdvance then safeCursor scannedTo else pure none

/-- Ingest a funding or claim record. -/
def observe (event : SettlementEvent) (mayAdvance : Bool) (scannedTo : ChainCursor) :
    EngineAct Unit := do
  let cursor ← advancedCursor mayAdvance scannedTo
  let engine ← Act.get
  let _ ← ingest event (cursor.map engine.cursorUpdate)
  pure ()

/-- Consume one record of a batch. -/
def consume (scannedTo : ChainCursor) (last : Option Nat) (entry : ChainRecord × Nat) :
    EngineAct Unit :=
  match entry.1 with
  | .reorg fromHeight oldAnchor => do
    let engine ← Act.get
    -- rows are invalidated before the reorg commits, so a crash in between is harmless
    let _ ← askStore (.invalidateEvidenceFrom engine.settlementId fromHeight)
    Act.modify fun engine => { engine with
      pendingRefunds := engine.pendingRefunds.filter (·.blockHeight < fromHeight)
      reorder := engine.reorder.dropFrom fromHeight }
    let _ ← ingest (.reorgInvalidated fromHeight oldAnchor) none
    pure ()
  | .funding evidence => observe (.fundingObserved evidence) (some entry.2 = last) scannedTo
  | .claim evidence => observe (.claimEvidenceVerified evidence) (some entry.2 = last) scannedTo
  | .refund evidence =>
    -- a refund is held until it is final: a terminal on sight is forbidden
    Act.modify fun engine =>
      if evidence ∈ engine.pendingRefunds then engine
      else { engine with pendingRefunds := engine.pendingRefunds ++ [evidence] }

/-! ## Policy -/

/-- Latest applied evidence produced by an event of the given kind, at a height if one is given. -/
def appliedEvidenceOf (construct : EvidenceRef → SettlementEvent) (atHeight : Option UInt64) :
    EngineAct (Option EvidenceRef) := do
  let engine ← Act.get
  let rows : List EvidenceRow ← askStore (.evidence engine.settlementId .applied)
  pure ((rows.reverse.filter fun row => atHeight.all (row.reference.blockHeight = ·)).find?
    (fun row => deriveEventId engine.settlementId (construct row.reference) = row.evidenceId)
    |>.map (·.reference))

/-- Refund confirmation of a final refund, else timelock expiry. -/
def refundOrTimelock (engine : Engine) (state : SettlementState) (tip : UInt64) :
    Option SettlementEvent :=
  match engine.pendingRefunds.find? fun evidence => engine.isFinal evidence.blockHeight tip with
  | some evidence => some (.refundConfirmed evidence)
  | none =>
    if engine.timelockCommitted = false ∧ (state = .confirming ∨ state = .settling) ∧
        engine.policy.refundNotBeforeHeight.toNat ≤ min (tip.toNat + 1) (2 ^ 64 - 1) then
      some .timelockExpired
    else none

/-- Claim confirmation of final claim evidence, else what comes after it. -/
def claimPolicy (ctx : SettlementContext) (tip : UInt64) : EngineAct (Option SettlementEvent) := do
  let engine ← Act.get
  let rest := refundOrTimelock engine ctx.state tip
  if ctx.state = .settling ∧ ctx.claimEvidenceVerified = true then do
    let applied ← appliedEvidenceOf .claimEvidenceVerified none
    match applied with
    | some evidence =>
      if engine.isFinal evidence.blockHeight tip then pure (some (.claimConfirmed evidence))
      else pure rest
    | none => pure rest
  else pure rest

/-- **First applicable policy event**: funding confirmation, absence after a reorg, claim
confirmation, refund confirmation, timelock expiry. -/
def nextPolicyEvent (ctx : SettlementContext) (tip : UInt64) :
    EngineAct (Option SettlementEvent) := do
  let engine ← Act.get
  if ctx.state.isTerminal then pure none
  else if ctx.state = .confirming then
    match ctx.lastObservedHeight with
    | some height =>
      if engine.isFinal height tip then do
        let applied ← appliedEvidenceOf .fundingObserved (some height)
        match applied with
        | some evidence => pure (some (.fundingConfirmed evidence))
        | none => claimPolicy ctx tip
      else claimPolicy ctx tip
    -- an observation is missing only after a reorg: the funding did not come back
    | none => pure (some (.fundingAbsent engine.scanCursor.height))
  else claimPolicy ctx tip

/-- What the memory keeps of a policy event that was ingested, whatever became of it. -/
def settlePolicyEvent (event : SettlementEvent) (engine : Engine) : Engine :=
  match event with
  | .timelockExpired => { engine with timelockCommitted := true }
  | .refundConfirmed evidence =>
    { engine with pendingRefunds := engine.pendingRefunds.filter (· ≠ evidence) }
  | _ => engine

/-- Policy events until there is none, a race is lost twice, or the bound is reached. -/
def policyRounds (tip : UInt64) : Nat → EngineAct Unit
  | 0 => pure ()
  | rounds + 1 => do
    let snapshot ← snapshot
    let event ← nextPolicyEvent snapshot.context tip
    match event with
    | none => pure ()
    | some event => do
      let result ← ingest event none
      match result with
      | none => pure ()
      | some _ => do
        Act.modify (settlePolicyEvent event)
        policyRounds tip rounds

/-- **Apply the policy events** derived from the frozen terms and the durable state. -/
def applyPolicy : EngineAct Unit := do
  let tip : UInt64 ← askChain .tipHeight
  policyRounds tip maxPolicyIngestsPerTick

/-! ## Outbox -/

/-- Mark an effect completed. -/
def completeEffect (effect : ClaimedEffect) : EngineAct Unit := do
  let _ ← askStore (.completeEffect effect.effectId effect.payloadHash)
  modifyReport fun report => { report with effectsCompleted := report.effectsCompleted + 1 }

/-- Rewind the scanner below the height of a revalidation. -/
def rewindTo (height : UInt64) : EngineAct Unit := do
  let engine ← Act.get
  let floor := saturatingSub height 1
  if floor < engine.scanCursor.height then do
    let cursor : ChainCursor ← askChain (.cursorAt floor)
    Act.modify fun engine => { engine with scanCursor := cursor }
  else pure ()

/-- Execute one claimed effect: a revalidation rewinds the scanner, the rest goes to the sink. -/
def dispatchEffect (effect : ClaimedEffect) : EngineAct Unit :=
  match effect.kind with
  | .revalidateFrom height => do
    rewindTo height
    completeEffect effect
  | _ => do
    let outcome ← executeEffect effect
    match outcome with
    | .completed => completeEffect effect
    | .retryLater => pure ()
    | .rejected =>
      modifyReport fun report => { report with effectsRejected := report.effectsRejected + 1 }

/-- **Dispatch the durable outbox.** -/
def dispatch (now : Int) : EngineAct Unit := do
  let engine ← Act.get
  let claimed : List ClaimedEffect ←
    askStore (.readyOutbox now engine.leaseMs engine.maxEffectsPerTick)
  modifyReport fun report =>
    { report with effectsDispatched := report.effectsDispatched + claimed.length }
  Act.forEach dispatchEffect claimed

/-! ## One tick -/

/-- Scan from the engine's position. -/
def scan : EngineAct (List ChainRecord × ChainCursor) := do
  let engine ← Act.get
  askChain (.scan engine.scanCursor)

/-- Consume the records of a scan, then move the scan position. -/
def consumeBatch (records : List ChainRecord) (scannedTo : ChainCursor) : EngineAct Unit := do
  modifyReport fun report => { report with recordsSeen := records.length }
  Act.forEach (consume scannedTo (lastIngestible records)) records.zipIdx
  Act.modify fun engine => { engine with scanCursor := scannedTo }

/-- **One engine step**: retry parked, scan, ingest, apply policy, dispatch. -/
def tick (now : Int) : EngineAct TickReport := do
  modifyReport fun _ => {}
  Act.mapError .ingest (buffered drainParked)
  let (records, scannedTo) ← scan
  consumeBatch records scannedTo
  applyPolicy
  dispatch now
  let last ← snapshot
  modifyReport fun report => { report with state := some last.context.state }
  let engine ← Act.get
  pure engine.report

/-! ## Recovery -/

/-- Replay one journal row over the context rebuilt so far. -/
def replayRow (engine : Engine) (state : SettlementContext × UInt64 × Bool) (row : JournalRow) :
    Except SettlementEngineError (SettlementContext × UInt64 × Bool) := do
  let (ctx, seq, timelock) := state
  rejectIf (row.seq ≠ seq + 1) (.recoveryDivergence "journal gap")
  rejectIf (row.envelope.settlementId ≠ engine.settlementId ∨
      row.envelope.sessionId ≠ engine.terms.sessionId ∨ row.envelope.termsHash ≠ engine.termsHash)
    (.recoveryDivergence "journalled envelope is bound to different terms")
  rejectIf (row.expectedRevision ≠ ctx.revision)
    (.recoveryDivergence "journalled expected revision is not the replayed one")
  let applied ← mapError
    (fun _ => .recoveryDivergence "journalled event replays as illegal")
    (transition ctx row.envelope.event)
  rejectIf (applied.next.revision ≠ row.resultingRevision)
    (.recoveryDivergence "replayed revision differs from the journalled one")
  rejectIf (contextHash applied.next ≠ row.contextHash)
    (.recoveryDivergence "replayed context hash differs from the journalled one")
  pure (applied.next, seq + 1, timelock || row.envelope.event = .timelockExpired)

/-- The terminal row agrees with the replayed context. -/
def checkTerminal (ctx : SettlementContext) : Option TerminalRow →
    Except SettlementEngineError Unit
  | some row => rejectIf (ctx.state.isTerminal = false ∨ row.outcome ≠ ctx.state ∨
        row.finalizedRevision ≠ ctx.revision)
      (.recoveryDivergence "terminal row disagrees with the replayed context")
  | none => rejectIf (ctx.state.isTerminal = true)
      (.recoveryDivergence "terminal context without a terminal row")

/-- The event that produced an evidence row: one of the five that carry evidence. -/
def invertEvidenceEvent (settlementId : SettlementId) (row : EvidenceRow) :
    Except SettlementEngineError SettlementEvent :=
  okOr .unreconstructableParkedEvidence
    (([.fundingObserved row.reference, .fundingConfirmed row.reference,
        .claimEvidenceVerified row.reference, .claimConfirmed row.reference,
        .refundConfirmed row.reference] : List SettlementEvent).find?
      fun event => deriveEventId settlementId event = row.evidenceId)

/-- The position scanning resumes at. -/
def resumeCursor : Option StoredCursor → EngineAct ChainCursor
  | some stored =>
    match stored.anchorHeight, stored.anchorHash with
    | some height, some anchor => pure ⟨stored.cursorBytes, height, anchor⟩
    | _, _ => Act.fail (.recoveryDivergence "persisted cursor has no anchor")
  | none => askChain .genesisCursor

/-- **Recover an engine from the durable state.** -/
def recover : EngineAct Unit := do
  let engine ← Act.get
  let snapshot ← snapshot
  Act.lift (rejectIf (snapshot.termsHash ≠ engine.termsHash ∨
      snapshot.sessionId ≠ engine.terms.sessionId)
    (.recoveryDivergence "snapshot binding differs from the frozen terms"))
  let rows : List JournalRow ← askStore (.journal engine.settlementId)
  let (ctx, seq, timelock) ←
    Act.lift (rows.foldlM (replayRow engine) (SettlementContext.new, 0, false))
  Act.lift (rejectIf (ctx ≠ snapshot.context)
    (.recoveryDivergence "journal replay does not reproduce the snapshot"))
  Act.lift (rejectIf (snapshot.lastEventSeq ≠ seq)
    (.recoveryDivergence "snapshot sequence does not match the journal length"))
  let terminal : Option TerminalRow ← askStore (.terminal engine.settlementId)
  Act.lift (checkTerminal ctx terminal)
  let stored : Option StoredCursor ← askStore (.cursor engine.settlementId engine.chainId)
  let scanCursor ← resumeCursor stored
  let parked : List EvidenceRow ← askStore (.evidence engine.settlementId .parked)
  let events ← Act.lift (parked.mapM (invertEvidenceEvent engine.settlementId))
  Act.modify fun engine => { engine with
    timelockCommitted := engine.timelockCommitted || timelock
    scanCursor := scanCursor
    reorder := engine.reorder.adopt (events.map engine.envelopeFor) }

/-- The policy of the frozen terms. -/
def policyOf (terms : SettlementTerms) : Except SettlementEngineError EnginePolicy :=
  match terms.domLeg.deadline with
  | .blockHeight value =>
    .ok ⟨.ofNat terms.domLeg.finality.minConfirmations.toNat,
      .ofNat terms.domLeg.finality.maxReorgDepth.toNat, value⟩
  | _ => .error .unsupportedTimelockDomain

/-- **Open an engine over an existing settlement** and recover it. -/
def openEngine (chainId : ChainId) (settlementId : SettlementId) :
    Client Unit SettlementEngineError Engine := do
  let found : Option (SettlementTerms × Digest32) ← askStore (.terms settlementId)
  match found with
  | none => Act.fail .unknownSettlement
  | some (terms, termsHash) => do
    Act.lift (rejectIf (terms.domLeg.chainId ≠ chainId) .chainMismatch)
    let policy ← Act.lift (policyOf terms)
    let scanCursor : ChainCursor ← askChain .genesisCursor
    let fresh : Engine :=
      { chainId := chainId, settlementId := settlementId, terms := terms, termsHash := termsHash
        policy := policy, scanCursor := scanCursor, pendingRefunds := [], reorder := []
        timelockCommitted := false, leaseMs := 30000, maxEffectsPerTick := 32, report := {} }
    fun m => (recover fresh).bind fun
      | (.ok _, engine) => .done (.ok engine, m)
      | (.error e, _) => .done (.error e, m)

/-! ## Small worlds for examples -/

/-- Ties in table order. -/
def tableOrder : OutboxOrder where
  sort rows := rows.insertionSort fun a b => a.sourceSeq ≤ b.sourceSeq
  perm := List.perm_insertionSort _
  sorted := List.pairwise_insertionSort _

/-- A store with new settlements. -/
def exampleStore (ids : List SettlementId) : Store :=
  ids.foldl (fun s id =>
    match s.create (exampleTerms id) with
    | .ok (_, s') => s'
    | .error _ => s) (.empty tableOrder)

/-- An engine as it is opened over a new settlement. -/
def exampleEngine (id : SettlementId) : Engine where
  chainId := 0
  settlementId := id
  terms := exampleTerms id
  termsHash := (exampleTerms id).termsHash.toOption.getD 0
  policy := ⟨2, 2, 100⟩
  scanCursor := ⟨[], 0, 0⟩
  pendingRefunds := []
  reorder := []
  timelockCommitted := false
  leaseMs := 30000
  maxEffectsPerTick := 32
  report := {}

/-- The canonical envelope of an event of an example settlement. -/
def exampleEnvelope (id : SettlementId) (event : SettlementEvent) : EventEnvelope :=
  (exampleEngine id).envelopeFor event

/-- The store after events were ingested one after the other. -/
def exampleIngested (s : Store) (envs : List EventEnvelope) : Store :=
  envs.foldl (fun s env =>
    ((ingestEvent env none : Client Unit IngestError IngestResult) ()).run Store.respond s |>.2) s

end DomProtocol.Settlement
