import DomProtocol.Settlement.Store
import DomProtocol.Lib.Prog

/-! # Event ingestion and deterministic reorder (`kaystra-core`, `ingest.rs`)

An engine talks to the store, a source of chain observations and a sink that executes effects:
together the interface **`Ports`**. `Store.step` says what an operation may do: a store operation
has the effect of its function on the tables, or reports an error and changes nothing; what the
chain and the sink answer is up to them.

**`ingestEvent`** is the engine algorithm for one envelope: load the snapshot, check the binding,
acknowledge a redelivery, classify late evidence, commit an accepted transition and park evidence
the machine cannot accept yet. Parked envelopes are retried after every commit (**`drainParked`**).
-/

namespace DomProtocol.Settlement

variable [Digests]

/-! ## Ports -/

/-- Opaque scanner position, as described by the adapter that produced it. -/
structure ChainCursor where
  bytes : Bytes
  height : UInt64
  anchor : Digest32
  deriving DecidableEq

/-- One record produced by the chain adapter for a settlement. -/
inductive ChainRecord where
  | funding (evidence : EvidenceRef)
  | claim (evidence : EvidenceRef)
  | refund (evidence : EvidenceRef)
  | reorg (fromHeight : UInt64) (oldAnchor : Digest32)
  deriving DecidableEq

/-- Failures of a chain source. -/
inductive ChainSourceError where
  | unavailable
  | invalidEvidence
  | staleCursor
  | boundsExceeded
  | identityMismatch
  deriving DecidableEq

/-- Outcome of executing one outbox effect. -/
inductive EffectOutcome where
  | completed
  | retryLater
  | rejected
  deriving DecidableEq

/-- Operations of the settlement store. -/
inductive StoreOp where
  | load (id : SettlementId)
  | committedEvent (id : SettlementId) (eventId : Id)
  | commitTransition (req : Store.Commit)
  | parkEvidence (id : SettlementId) (evidenceId : Id) (reference : EvidenceRef)
  | readyOutbox (now leaseMs : Int) (max : UInt32)
  | completeEffect (effectId payloadHash : Id)
  | recordLateEvidence (id : SettlementId) (evidenceId : Id) (terminal : SettlementState)
  | invalidateEvidenceFrom (id : SettlementId) (fromHeight : UInt64)
  | reaffirmEvidence (id : SettlementId) (evidenceId : Id)
  | terms (id : SettlementId)
  | journal (id : SettlementId)
  | evidence (id : SettlementId) (status : EvidenceStatus)
  | cursor (id : SettlementId) (chain : ChainId)
  | terminal (id : SettlementId)

/-- What a store operation returns. -/
abbrev StoreOp.Result : StoreOp → Type
  | load _ => Option SettlementSnapshot
  | committedEvent _ _ => Option EventEnvelope
  | commitTransition _ => CommitResult
  | parkEvidence _ _ _ => ParkResult
  | readyOutbox _ _ _ => List ClaimedEffect
  | completeEffect _ _ => Unit
  | recordLateEvidence _ _ _ => Unit
  | invalidateEvidenceFrom _ _ => Nat
  | reaffirmEvidence _ _ => Nat
  | terms _ => Option (SettlementTerms × Digest32)
  | journal _ => List JournalRow
  | evidence _ _ => List EvidenceRow
  | cursor _ _ => Option StoredCursor
  | terminal _ => Option TerminalRow

/-- Operations of a chain source. -/
inductive ChainOp where
  | genesisCursor
  | cursorAt (height : UInt64)
  | cursorAtFromScan (height : UInt64) (scannedTo : ChainCursor)
  | scan (start : ChainCursor)
  | tipHeight

/-- What a chain operation returns. -/
abbrev ChainOp.Result : ChainOp → Type
  | genesisCursor => ChainCursor
  | cursorAt _ => ChainCursor
  | cursorAtFromScan _ _ => ChainCursor
  | scan _ => List ChainRecord × ChainCursor
  | tipHeight => UInt64

/-- Operations an engine may call. -/
inductive Op where
  | store (op : StoreOp)
  | chain (op : ChainOp)
  | execute (effect : ClaimedEffect)

/-- The reply to an operation. -/
abbrev Op.Reply : Op → Type
  | store op => Except StorePortError op.Result
  | chain op => Except ChainSourceError op.Result
  | execute _ => EffectOutcome

/-- **What an engine is connected to.** -/
abbrev Ports : Interface := ⟨Op, Op.Reply⟩

/-- A client of the ports with a memory. -/
abbrev Client (μ ε α : Type) := Act Ports μ ε α

/-! ## What an operation does -/

/-- The effect of a store operation on the tables. -/
def Store.exec (s : Store) : (op : StoreOp) → Except StorePortError (op.Result × Store)
  | .load id => (s.load id).map (·, s)
  | .committedEvent id eventId => .ok (s.committedEvent id eventId, s)
  | .commitTransition req => s.commitTransition req
  | .parkEvidence id evidenceId reference => s.parkEvidence id evidenceId reference
  | .readyOutbox now leaseMs max => s.readyOutbox now leaseMs max
  | .completeEffect effectId payloadHash => (s.completeEffect effectId payloadHash).map ((), ·)
  | .recordLateEvidence id evidenceId terminal =>
    (s.recordLateEvidence id evidenceId terminal).map ((), ·)
  | .invalidateEvidenceFrom id fromHeight => s.invalidateEvidenceFrom id fromHeight
  | .reaffirmEvidence id evidenceId => .ok (s.reaffirmEvidence id evidenceId)
  | .terms id => (s.terms id).map (·, s)
  | .journal id => (s.readJournal id).map (·, s)
  | .evidence id status => .ok (s.evidence id status, s)
  | .cursor id chain => .ok (s.cursor id chain, s)
  | .terminal id => .ok (s.terminal id, s)

/-- **What an operation may do.** The storage layer may be unavailable at any time; the chain and
the sink may answer anything. -/
def Store.step : (op : Op) → Store → op.Reply → Store → Prop
  | .store op, s, .ok value, s' => s.exec op = .ok (value, s')
  | .store op, s, .error e, s' =>
    s' = s ∧ (s.exec op = .error e ∨ e = .storage .storageUnavailable)
  | .chain _, s, _, s' => s' = s
  | .execute _, s, _, s' => s' = s

/-- The replies of a store that is always available, with no chain and no sink behind the ports. -/
def Store.respond : (op : Op) → Store → op.Reply × Store
  | .store op, s =>
    match s.exec op with
    | .ok (value, s') => (.ok value, s')
    | .error e => (.error e, s)
  | .chain _, s => (.error .unavailable, s)
  | .execute _, s => (.retryLater, s)

/-- The replies are among those an operation may give. -/
theorem Store.respond_step (op : Op) (s : Store) :
    Store.step op s (Store.respond op s).1 (Store.respond op s).2 := by
  cases op with
  | store op =>
    cases h : s.exec op with
    | ok outcome =>
      simp only [Store.respond, h]
      exact h
    | error e =>
      simp only [Store.respond, h]
      exact ⟨rfl, .inl h⟩
  | chain op => rfl
  | execute effect => rfl

variable {μ ε : Type}

/-- Call a store operation. -/
def storeCall (op : StoreOp) : Client μ StorePortError op.Result :=
  fun m => .call (Op.store op) fun r => .done (r, m)

/-- Call a chain operation. -/
def chainCall (op : ChainOp) : Client μ ChainSourceError op.Result :=
  fun m => .call (Op.chain op) fun r => .done (r, m)

/-- Calling the store: what the reply leaves behind. -/
theorem storeCall_safe {σ : Type} {E : Environment Ports σ} {inv : σ → Prop} {m : μ} {s : σ}
    {op : StoreOp} {f : StorePortError → ε} {ok : op.Result → μ → σ → Prop} {err : ε → μ → σ → Prop}
    (h : ∀ s₁ r s₂, E.rely s s₁ → E.step (Op.store op) s₁ r s₂ → inv s₂ ∧
      ∀ t, E.rely s₂ t →
        (∀ value, r = .ok value → ok value m t) ∧ (∀ e, r = .error e → err (f e) m t)) :
    Act.Safe E inv (Act.mapError f (storeCall op)) m s ok err := by
  intro s₁ r s₂ moved done
  obtain ⟨hinv, hpost⟩ := h s₁ r s₂ moved done
  refine ⟨hinv, ?_⟩
  cases r with
  | error e => exact fun t ht => (hpost t ht).2 e rfl
  | ok value => exact fun t ht => (hpost t ht).1 value rfl

/-- Hand an effect to the sink. -/
def executeEffect (effect : ClaimedEffect) : Client μ ε EffectOutcome :=
  fun m => .call (Op.execute effect) fun r => .done (.ok r, m)

/-! ## Ingesting one envelope -/

/-- Result of ingesting one envelope. -/
inductive IngestResult where
  | committed (revision : UInt64)
  | duplicate
  | parkedForReorder
  | lateNoEconomicEffect
  deriving DecidableEq

/-- Ingestion failures (`EngineError`). -/
inductive IngestError where
  | unknownSettlement
  | bindingMismatch
  | machine (error : TransitionError)
  | store (error : StorePortError)
  deriving DecidableEq

/-- Call a store operation from the ingestion path. -/
def ask (op : StoreOp) : Client μ IngestError op.Result :=
  Act.mapError IngestError.store (storeCall op)

/-- Commit a transition of the loaded snapshot. -/
def commitAccepted (snapshot : SettlementSnapshot) (env : EventEnvelope) (t : Transition)
    (cursorUpdate : Option CursorUpdate) : Client μ IngestError IngestResult := do
  let result : CommitResult ← ask (.commitTransition
    ⟨snapshot.context.revision, env, t, effectsToOutbox env t.effects, cursorUpdate⟩)
  match result with
  | .committed revision => pure (.committed revision)
  | .duplicateSameBytes => pure .duplicate

/-- A redelivery of a journalled event: applied again if its evidence had been invalidated. -/
def acknowledge (snapshot : SettlementSnapshot) (env : EventEnvelope)
    (cursorUpdate : Option CursorUpdate) : Client μ IngestError IngestResult :=
  match acceptedEvidence env.event with
  | none => pure .duplicate
  | some _ =>
    if snapshot.context.state.isTerminal then do
      let _ ← ask (.reaffirmEvidence env.settlementId env.eventId)
      pure .duplicate
    else
      match transition snapshot.context env.event with
      | .ok t => commitAccepted snapshot env t cursorUpdate
      | .error _ => do
        let _ ← ask (.reaffirmEvidence env.settlementId env.eventId)
        pure .duplicate

/-- Evidence rows from the height of a reorg are invalidated before the reorg commits. -/
def invalidateBefore (env : EventEnvelope) : Client μ IngestError Unit :=
  match env.event with
  | .reorgInvalidated fromHeight _ => do
    let _ ← ask (.invalidateEvidenceFrom env.settlementId fromHeight)
    pure ()
  | _ => pure ()

/-- The first delivery of an event to a settlement that is not terminal. -/
def deliver (snapshot : SettlementSnapshot) (env : EventEnvelope)
    (cursorUpdate : Option CursorUpdate) : Client μ IngestError IngestResult :=
  match transition snapshot.context env.event with
  | .ok t => do
    invalidateBefore env
    commitAccepted snapshot env t cursorUpdate
  | .error e =>
    if e = .illegalEvent ∨ e = .preconditionUnsatisfied then
      match acceptedEvidence env.event with
      | none => Act.fail (.machine e)
      | some reference => do
        let _ ← ask (.parkEvidence env.settlementId env.eventId reference)
        pure .parkedForReorder
    else Act.fail (.machine e)

/-- What is left of an ingestion once the snapshot is known to be bound to the envelope. -/
def ingestBound (snapshot : SettlementSnapshot) (env : EventEnvelope)
    (cursorUpdate : Option CursorUpdate) : Client μ IngestError IngestResult := do
  let committed : Option EventEnvelope ← ask (.committedEvent env.settlementId env.eventId)
  match committed with
  | some bytes =>
    if bytes ≠ env then Act.fail (.store .equivocation)
    else acknowledge snapshot env cursorUpdate
  | none =>
    if snapshot.context.state.isTerminal then do
      let _ ← ask (.recordLateEvidence env.settlementId env.eventId snapshot.context.state)
      pure .lateNoEconomicEffect
    else deliver snapshot env cursorUpdate

/-- **The engine algorithm, one envelope at a time.** -/
def ingestEvent (env : EventEnvelope) (cursorUpdate : Option CursorUpdate) :
    Client μ IngestError IngestResult := do
  let loaded : Option SettlementSnapshot ← ask (.load env.settlementId)
  match loaded with
  | none => Act.fail .unknownSettlement
  | some snapshot =>
    if snapshot.sessionId ≠ env.sessionId ∨ snapshot.termsHash ≠ env.termsHash then
      Act.fail .bindingMismatch
    else ingestBound snapshot env cursorUpdate

/-! ## The reorder buffer -/

/-- Parked envelopes in canonical order. -/
abbrev ReorderBuffer := List EventEnvelope

/-- The canonical position of an envelope; one without evidence comes last. -/
def canonicalKey (env : EventEnvelope) : UInt64 × UInt32 × Digest32 :=
  match acceptedEvidence env.event with
  | some reference => Rows.canonicalKey reference
  | none => (.ofNat (2 ^ 64 - 1), .ofNat (2 ^ 32 - 1), BitVec.allOnes _)

/-- Sort a buffer into canonical order. -/
def ReorderBuffer.sort (parked : ReorderBuffer) : ReorderBuffer :=
  List.insertionSort (fun a b => Rows.canonicalLe (canonicalKey a) (canonicalKey b)) parked

/-- Park an envelope, once. -/
def ReorderBuffer.park (env : EventEnvelope) (parked : ReorderBuffer) : ReorderBuffer :=
  if env ∈ parked then parked else ReorderBuffer.sort (parked ++ [env])

/-- Drop the envelopes at or above a reorged height. -/
def ReorderBuffer.dropFrom (fromHeight : UInt64) (parked : ReorderBuffer) : ReorderBuffer :=
  parked.filter fun env =>
    match acceptedEvidence env.event with
    | some reference => reference.blockHeight < fromHeight
    | none => true

/-- Adopt envelopes reconstructed from durable rows. -/
def ReorderBuffer.adopt (envelopes : List EventEnvelope) (parked : ReorderBuffer) : ReorderBuffer :=
  ReorderBuffer.sort (envelopes.foldl (fun parked env =>
    if env ∈ parked then parked else parked ++ [env]) parked)

/-- Retry the envelopes of one pass: those still parked, and whether one left. -/
def retryAll : List EventEnvelope → List EventEnvelope → Bool →
    Client ReorderBuffer IngestError (List EventEnvelope × Bool)
  | [], stillParked, progressed => pure (stillParked, progressed)
  | env :: rest, stillParked, progressed => do
    let result ← ingestEvent env none
    match result with
    | .parkedForReorder => retryAll rest (stillParked ++ [env]) progressed
    | _ => retryAll rest stillParked true

/-- One pass over the buffer. It is taken out of memory first, so an error loses the rest. -/
def drainPass : Client ReorderBuffer IngestError Bool := do
  let parked ← Act.get
  Act.modify fun _ => []
  let (stillParked, progressed) ← retryAll parked [] false
  Act.modify fun _ => stillParked
  pure progressed

/-- Passes until one makes no progress or the buffer is empty. A pass with progress retires an
envelope, so as many passes as there are envelopes are enough. -/
def drainPasses : Nat → Client ReorderBuffer IngestError Unit
  | 0 => pure ()
  | passes + 1 => do
    let progressed ← drainPass
    let parked ← Act.get
    if progressed = false ∨ parked = [] then pure () else drainPasses passes

/-- **Re-apply parked envelopes in canonical order until quiescence.** -/
def drainParked : Client ReorderBuffer IngestError Unit := do
  let parked ← Act.get
  drainPasses parked.length

/-- Ingest one envelope; park it if it must wait, and retry the parked ones after a commit. -/
def ReorderBuffer.ingest (env : EventEnvelope) (cursorUpdate : Option CursorUpdate) :
    Client ReorderBuffer IngestError IngestResult := do
  let result ← ingestEvent env cursorUpdate
  match result with
  | .parkedForReorder => do
    Act.modify (ReorderBuffer.park env)
    pure result
  | .committed _ => do
    drainParked
    pure result
  | _ => pure result

end DomProtocol.Settlement
