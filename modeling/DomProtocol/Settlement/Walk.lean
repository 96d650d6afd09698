import DomProtocol.Settlement.Footprint

/-! # A walk through the engine

What an engine does is a long chain of small calls, and a property of it is mostly about a few of
them. A **`Walk`** lists what has to be shown about the calls: which envelopes may be ingested, what
the store and the chain may show the engine, and that each call keeps an invariant. Then every part
of the engine keeps it, with what the engine remembers (**`Walk.Memory`**).

A claim or a refund is confirmed only if it was shown and is final under the tip that was shown. A
reorganisation in a batch takes away what the records before it rest on, so the invariant of a tick
depends on the records still to come: a **`Passage`** is a walk for each list of them
(`Passage.tick`). -/

namespace DomProtocol.Settlement

variable [Digests]

open Act (Keeping Safe keeping_fail keeping_ret keeping_get keeping_modify keeping_lift)

/-- Parked evidence is turned into an event it is the evidence of. -/
theorem invertEvidenceEvent_sound {id : SettlementId} {row : EvidenceRow} {event : SettlementEvent}
    (h : invertEvidenceEvent id row = .ok event) :
    acceptedEvidence event = some row.reference ∧ deriveEventId id event = row.evidenceId := by
  have found := okOr_eq_ok.mp h
  have matching := List.find?_some found
  refine ⟨?_, of_decide_eq_true matching⟩
  have candidate := List.mem_of_find?_eq_some found
  simp only [List.mem_cons, List.not_mem_nil, or_false] at candidate
  rcases candidate with rfl | rfl | rfl | rfl | rfl <;> rfl

/-! ## What an engine is bound to -/

/-- What an engine is bound to for its lifetime. -/
structure Binding where
  chainId : ChainId
  settlementId : SettlementId
  terms : SettlementTerms
  termsHash : Digest32
  policy : EnginePolicy

/-- The binding of an engine. -/
def Engine.binding (engine : Engine) : Binding :=
  ⟨engine.chainId, engine.settlementId, engine.terms, engine.termsHash, engine.policy⟩

namespace Binding

variable (b : Binding)

/-- The canonical envelope of an event. -/
def envelopeFor (event : SettlementEvent) : EventEnvelope :=
  Settlement.envelopeFor b.settlementId b.terms.sessionId b.termsHash b.chainId event

/-- The cursor to persist for a position. -/
def cursorUpdate (cursor : ChainCursor) : CursorUpdate :=
  ⟨b.chainId, cursor.bytes, some cursor.height, some cursor.anchor⟩

/-- Enough blocks confirm a height under a tip. -/
def isFinal (height tip : UInt64) : Bool :=
  height ≤ tip && b.policy.minConfirmations.toNat ≤ min (tip.toNat - height.toNat + 1) (2 ^ 64 - 1)

/-- Calls of an engine outside `ingestEvent`. -/
def EngineOp : Op → Prop
  | .store (.load id) => id = b.settlementId
  | .store (.evidence id _) => id = b.settlementId
  | .store (.invalidateEvidenceFrom id _) => id = b.settlementId
  | .store (.readyOutbox _ _ _) => True
  | .store (.completeEffect _ _) => True
  | .store (.journal id) => id = b.settlementId
  | .store (.terminal id) => id = b.settlementId
  | .store (.cursor id _) => id = b.settlementId
  | .chain _ => True
  | .execute _ => True
  | _ => False

end Binding

/-! ## Walks -/

/-- **What has to be shown about the calls of an engine.** -/
structure Walk {σ : Type} (E : Environment Ports σ) (b : Binding) where
  inv : σ → Prop
  stable : ∀ s s', E.rely s s' → inv s → inv s'
  Observed : ChainRecord → Prop
  Tip : UInt64 → Prop
  Position : ChainCursor → Prop
  Env : EventEnvelope → Prop
  Limit : UInt32 → Prop := fun _ => True
  kept : ∀ op s r s', b.EngineOp op → QuietOp op → E.step op s r s' → inv s → inv s'
  ingest : ∀ {env cursorUpdate} (M : ReorderBuffer → Prop), Env env →
    (∀ update, cursorUpdate = some update →
      ∃ position, Position position ∧ update = b.cursorUpdate position) →
    Keeping ⟨E, inv, stable⟩ M (fun _ => True)
      (ingestEvent env cursorUpdate : Client ReorderBuffer IngestError IngestResult)
  appliedFunding : ∀ s s' (rows : List EvidenceRow),
    E.step (.store (.evidence b.settlementId .applied)) s (.ok rows) s' → inv s → ∀ row ∈ rows,
      deriveEventId b.settlementId (.fundingObserved row.reference) = row.evidenceId →
        Observed (.funding row.reference)
  appliedClaim : ∀ s s' (rows : List EvidenceRow),
    E.step (.store (.evidence b.settlementId .applied)) s (.ok rows) s' → inv s → ∀ row ∈ rows,
      deriveEventId b.settlementId (.claimEvidenceVerified row.reference) = row.evidenceId →
        Observed (.claim row.reference)
  parked : ∀ s s' (rows : List EvidenceRow),
    E.step (.store (.evidence b.settlementId .parked)) s (.ok rows) s' → inv s → ∀ row ∈ rows,
      ∀ event, acceptedEvidence event = some row.reference →
        deriveEventId b.settlementId event = row.evidenceId → Env (b.envelopeFor event)
  position : ∀ s s' height scannedTo (position : ChainCursor),
    E.step (.chain (.cursorAtFromScan height scannedTo)) s (.ok position) s' → inv s →
      Position position
  quiet : ∀ event, acceptedEvidence event = none → Env (b.envelopeFor event)
  funding : ∀ evidence, Observed (.funding evidence) →
    Env (b.envelopeFor (.fundingObserved evidence)) ∧
      Env (b.envelopeFor (.fundingConfirmed evidence))
  claim : ∀ evidence, Observed (.claim evidence) →
    Env (b.envelopeFor (.claimEvidenceVerified evidence)) ∧
      ∀ t, Tip t → b.isFinal evidence.blockHeight t = true →
        Env (b.envelopeFor (.claimConfirmed evidence))
  refund : ∀ evidence, Observed (.refund evidence) → ∀ t, Tip t →
    b.isFinal evidence.blockHeight t = true → Env (b.envelopeFor (.refundConfirmed evidence))

namespace Walk

variable {σ : Type} {E : Environment Ports σ} {b : Binding} (W : Walk E b)

variable {engine : Engine} {parked : List EventEnvelope} {env : EventEnvelope}
  {cursorUpdate : Option CursorUpdate} {ε α : Type} {Q : α → Prop} {event : SettlementEvent}
  {scannedTo : ChainCursor} {tip : UInt64}

/-- The invariant of the walk in its surroundings. -/
def regime : Regime Ports σ := ⟨E, W.inv, W.stable⟩

/-- The buffer holds envelopes that may be ingested. -/
def Buffer (parked : ReorderBuffer) : Prop := ∀ env ∈ parked, W.Env env

/-- **What an engine remembers on the walk.** -/
structure Memory (engine : Engine) : Prop where
  binding : engine.binding = b
  limit : W.Limit engine.maxEffectsPerTick
  reorder : W.Buffer engine.reorder
  pending : ∀ evidence ∈ engine.pendingRefunds, W.Observed (.refund evidence)

/-- The event may be ingested. -/
def Event (event : SettlementEvent) : Prop := W.Env (b.envelopeFor event)

/-- The cursor is that of a position that may be persisted. -/
def Cursor (cursorUpdate : Option CursorUpdate) : Prop :=
  ∀ update, cursorUpdate = some update →
    ∃ position, W.Position position ∧ update = b.cursorUpdate position

/-- No cursor is persisted. -/
theorem cursor_none : W.Cursor none := by
  intro update h
  cases h

variable {W}

/-- Envelopes of the engine are those of its binding. -/
theorem Memory.envelopeFor (h : W.Memory engine) (event : SettlementEvent) :
    engine.envelopeFor event = b.envelopeFor event := by
  rw [← h.binding]
  rfl

/-- Its finality is that of the binding. -/
theorem Memory.isFinal (h : W.Memory engine) (height tip : UInt64) :
    engine.isFinal height tip = b.isFinal height tip := by
  rw [← h.binding]
  rfl

/-- Its settlement is that of the binding. -/
theorem Memory.settlementId (h : W.Memory engine) : engine.settlementId = b.settlementId := by
  rw [← h.binding]
  rfl

variable (W)

/-- A part of the engine keeps to the walk. -/
abbrev Keeps (x : Client Engine ε α) : Prop := Keeping W.regime W.Memory (fun _ => True) x

/-! ## Calls -/

variable {μ : Type} {M : μ → Prop}

/-- A question to the store, with what the answer shows. -/
theorem askStore (op : StoreOp) {Q : op.Result → Prop}
    (kept : ∀ s r s', E.step (.store op) s r s' → W.inv s → W.inv s')
    (known : ∀ s s' value, E.step (.store op) s (.ok value) s' → W.inv s → Q value) :
    Keeping W.regime M Q (Settlement.askStore op : Client μ SettlementEngineError op.Result) := by
  refine Keeping.mapError _ (Keeping.call (I := Ports) (Op.store op) (fun r => r) kept ?_)
  rintro s r s' value done start rfl
  exact known s s' value done start

/-- A quiet question about the own settlement. -/
theorem askOwn (op : StoreOp) (own : b.EngineOp (.store op)) (quiet : QuietOp (.store op)) :
    Keeping W.regime M (fun _ => True)
      (Settlement.askStore op : Client μ SettlementEngineError op.Result) :=
  W.askStore op (W.kept _ · · · own quiet) fun _ _ _ _ _ => trivial

/-- A question to the chain, with what the answer shows. -/
theorem askChain (op : ChainOp) {Q : op.Result → Prop}
    (kept : ∀ s r s', E.step (.chain op) s r s' → W.inv s → W.inv s')
    (known : ∀ s s' value, E.step (.chain op) s (.ok value) s' → W.inv s → Q value) :
    Keeping W.regime M Q (Settlement.askChain op : Client μ SettlementEngineError op.Result) := by
  refine Keeping.mapError _ (Keeping.call (I := Ports) (Op.chain op) (fun r => r) kept ?_)
  rintro s r s' value done start rfl
  exact known s s' value done start

/-! ## The reorder buffer -/

/-- A retry puts envelopes back that it was given. -/
theorem retryAll {stillParked : List EventEnvelope} {progressed : Bool}
    (allowed : W.Buffer parked) (still : W.Buffer stillParked) :
    Keeping W.regime W.Buffer (fun result => W.Buffer result.1)
      (Settlement.retryAll parked stillParked progressed) := by
  induction parked generalizing stillParked progressed with
  | nil => exact keeping_ret still
  | cons env rest ih =>
    have first := allowed env List.mem_cons_self
    have others : W.Buffer rest := fun other mem => allowed other (List.mem_cons_of_mem _ mem)
    refine (W.ingest _ first W.cursor_none).bind fun result _ => ?_
    cases result with
    | parkedForReorder =>
      refine ih others fun other mem => ?_
      rcases mem_snoc.mp mem with mem | rfl
      · exact still other mem
      · assumption
    | _ => exact ih others still

/-- One pass over the buffer. -/
theorem drainPass : Keeping W.regime W.Buffer (fun _ => True) Settlement.drainPass := by
  refine keeping_get.bind fun parked allowed => ?_
  refine (keeping_modify fun _ _ env mem => by cases mem).bind fun _ _ => ?_
  refine (W.retryAll allowed fun env mem => by cases mem).bind fun result still => ?_
  exact (keeping_modify fun _ _ => still).bind fun _ _ => keeping_ret trivial

/-- Any number of passes. -/
theorem drainPasses (passes : Nat) :
    Keeping W.regime W.Buffer (fun _ => True) (Settlement.drainPasses passes) := by
  induction passes with
  | zero => exact keeping_ret trivial
  | succ passes ih =>
    refine W.drainPass.bind fun progressed _ => keeping_get.bind fun parked _ => ?_
    split
    · exact keeping_ret trivial
    · exact ih

/-- Draining, as long as something was committed. -/
theorem drainParked : Keeping W.regime W.Buffer (fun _ => True) Settlement.drainParked :=
  keeping_get.bind fun parked _ => W.drainPasses parked.length

variable {W} in
/-- One more envelope. -/
theorem Buffer.snoc {parked : ReorderBuffer} (allowed : W.Buffer parked)
    (h : W.Env env) : W.Buffer (parked ++ [env]) := by
  intro other mem
  rcases mem_snoc.mp mem with mem | rfl
  · exact allowed other mem
  · assumption

variable {W} in
/-- Parking keeps the buffer. -/
theorem Buffer.park {parked : ReorderBuffer} (allowed : W.Buffer parked)
    (h : W.Env env) : W.Buffer (ReorderBuffer.park env parked) := by
  unfold ReorderBuffer.park
  split
  · exact allowed
  · exact fun other mem => allowed.snoc h other ((List.mem_insertionSort _).mp mem)

variable {W} in
/-- So does adopting parked rows. -/
theorem Buffer.adopt {envelopes : List EventEnvelope} (allowed : W.Buffer parked)
    (new : W.Buffer envelopes) : W.Buffer (ReorderBuffer.adopt envelopes parked) := by
  have loop : W.Buffer (envelopes.foldl (fun parked env =>
      if env ∈ parked then parked else parked ++ [env]) parked) := by
    induction envelopes generalizing parked with
    | nil => exact allowed
    | cons env rest ih =>
      refine ih ?_ fun other mem => new other (List.mem_cons_of_mem _ mem)
      dsimp only
      split
      · exact allowed
      · exact allowed.snoc (new env List.mem_cons_self)
  exact fun env mem => loop env ((List.mem_insertionSort _).mp mem)

/-- Ingestion through the buffer. -/
theorem bufferIngest (allowed : W.Env env) (cursor : W.Cursor cursorUpdate) :
    Keeping W.regime W.Buffer (fun _ => True) (ReorderBuffer.ingest env cursorUpdate) := by
  refine (W.ingest _ allowed cursor).bind fun result _ => ?_
  cases result with
  | committed revision => exact W.drainParked.bind fun _ _ => keeping_ret trivial
  | duplicate => exact keeping_ret trivial
  | parkedForReorder =>
    have parks (parked : ReorderBuffer) (h : W.Buffer parked) :
        W.Buffer (ReorderBuffer.park env parked) := h.park allowed
    exact (keeping_modify parks).bind fun _ _ => keeping_ret trivial
  | lateNoEconomicEffect => exact keeping_ret trivial

/-- What keeps to the walk with a buffer does so with an engine. -/
theorem buffered {x : Client ReorderBuffer ε α} (h : Keeping W.regime W.Buffer Q x) :
    Keeping W.regime W.Memory Q (Settlement.buffered x) :=
  h.zoom (fun _ memory => memory.reorder)
    fun _ _ allowed memory => ⟨memory.binding, memory.limit, allowed, memory.pending⟩

/-- The report plays no part. -/
theorem modifyReport (f : TickReport → TickReport) : W.Keeps (Settlement.modifyReport f) :=
  keeping_modify fun _ memory => ⟨memory.binding, memory.limit, memory.reorder, memory.pending⟩

/-! ## Ingestion -/

/-- Ingestion is tried again after a lost race. -/
theorem ingestTries (allowed : W.Event event) (cursor : W.Cursor cursorUpdate) (tries : Nat) :
    W.Keeps (Settlement.ingestTries event cursorUpdate tries) := by
  induction tries with
  | zero => exact keeping_ret trivial
  | succ tries ih =>
    refine keeping_get.bind fun engine memory => ?_
    rw [memory.envelopeFor]
    refine (W.buffered (W.bufferIngest allowed cursor)).attempt.bind fun outcome _ => ?_
    split
    · exact (W.modifyReport _).bind fun _ _ => keeping_ret trivial
    · exact (W.modifyReport _).bind fun _ _ => ih
    · exact keeping_fail _

/-- An engine's own ingest. -/
theorem engineIngest (allowed : W.Event event) (cursor : W.Cursor cursorUpdate) :
    W.Keeps (Settlement.ingest event cursorUpdate) :=
  W.ingestTries allowed cursor 2

/-- Loading the snapshot. -/
theorem snapshot : W.Keeps Settlement.snapshot := by
  refine keeping_get.bind fun engine memory => (W.askOwn (.load _) memory.settlementId trivial).bind
    fun loaded _ => ?_
  cases loaded with
  | none => exact keeping_fail _
  | some snapshot => exact keeping_ret trivial

/-- **Arming the refund.** -/
theorem armRefund : W.Keeps Settlement.armRefund :=
  (W.modifyReport _).bind fun _ _ => W.engineIngest (W.quiet _ rfl) W.cursor_none

/-! ## Chain records -/

/-- The safe cursor is a position the chain showed. -/
theorem safeCursor (shown : W.Position scannedTo) :
    Keeping W.regime W.Memory
      (fun result => ∀ cursor, result = some cursor → W.Position cursor)
      (Settlement.safeCursor scannedTo) := by
  have scanned : ∀ cursor, some scannedTo = some cursor → W.Position cursor := by
    rintro cursor ⟨⟩
    exact shown
  refine keeping_get.bind fun engine _ => ?_
  dsimp only
  split
  · exact keeping_ret scanned
  · split
    · exact keeping_ret nofun
    · split
      · exact keeping_ret scanned
      · refine (W.askChain (.cursorAtFromScan _ _) (W.kept _ · · · trivial trivial)
          (W.position · · _ _)).bind fun cursor known => ?_
        refine keeping_ret ?_
        rintro other ⟨⟩
        exact known

/-- A funding or claim record is ingested. -/
theorem observe {mayAdvance : Bool} (allowed : W.Event event) (shown : W.Position scannedTo) :
    W.Keeps (Settlement.observe event mayAdvance scannedTo) := by
  have advanced : Keeping W.regime W.Memory
      (fun result => ∀ cursor, result = some cursor → W.Position cursor)
      (Settlement.advancedCursor mayAdvance scannedTo) := by
    unfold Settlement.advancedCursor
    split
    · exact W.safeCursor shown
    · exact keeping_ret nofun
  refine advanced.bind fun cursor known => keeping_get.bind fun engine memory => ?_
  refine (W.engineIngest allowed ?_).bind fun _ _ => keeping_ret trivial
  intro update h
  obtain ⟨position, hposition, rfl⟩ := Option.map_eq_some_iff.mp h
  refine ⟨position, known position hposition, ?_⟩
  rw [← memory.binding]
  rfl

/-! ## Policy -/

/-- Applied evidence of a kind was observed. -/
theorem appliedEvidenceOf {construct : EvidenceRef → SettlementEvent}
    {record : EvidenceRef → ChainRecord} (kind : ∀ s s' (rows : List EvidenceRow),
      E.step (.store (.evidence b.settlementId .applied)) s (.ok rows) s' → W.inv s → ∀ row ∈ rows,
        deriveEventId b.settlementId (construct row.reference) = row.evidenceId →
          W.Observed (record row.reference)) (atHeight : Option UInt64) :
    Keeping W.regime W.Memory
      (fun result => ∀ evidence, result = some evidence → W.Observed (record evidence))
      (Settlement.appliedEvidenceOf construct atHeight) := by
  refine keeping_get.bind fun engine memory => ?_
  rw [memory.settlementId]
  refine (W.askStore (.evidence _ _) (W.kept _ · · · rfl trivial) kind).bind fun rows observed =>
    keeping_ret ?_
  intro evidence h
  obtain ⟨row, found, rfl⟩ := Option.map_eq_some_iff.mp h
  have mem := List.mem_of_mem_filter (List.mem_of_find?_eq_some found)
  have matching := List.find?_some found
  exact observed row (List.mem_reverse.mp mem) (of_decide_eq_true matching)

variable {W} in
/-- A refund is confirmed when it is final. -/
theorem Memory.refundOrTimelock (memory : W.Memory engine)
    (state : SettlementState) (shown : W.Tip tip) :
    ∀ event, Settlement.refundOrTimelock engine state tip = some event → W.Event event := by
  intro event h
  unfold Settlement.refundOrTimelock at h
  split at h
  · rename_i evidence found
    cases h
    have final := List.find?_some found
    rw [memory.isFinal] at final
    exact W.refund evidence (memory.pending evidence (List.mem_of_find?_eq_some found)) tip shown
      final
  · split at h
    · cases h
      exact W.quiet _ rfl
    · cases h

/-- A claim is confirmed when it is final. -/
theorem claimPolicy (ctx : SettlementContext) (shown : W.Tip tip) :
    Keeping W.regime W.Memory (fun result => ∀ event, result = some event → W.Event event)
      (Settlement.claimPolicy ctx tip) := by
  refine keeping_get.bind fun engine memory => ?_
  have rest := memory.refundOrTimelock ctx.state shown
  dsimp only
  split
  · refine (W.appliedEvidenceOf W.appliedClaim none).bind fun applied observed => ?_
    cases applied with
    | none => exact keeping_ret rest
    | some evidence =>
      dsimp only
      split
      · rename_i final
        rw [memory.isFinal] at final
        refine keeping_ret ?_
        rintro event ⟨⟩
        exact (W.claim evidence (observed evidence rfl)).2 tip shown final
      · exact keeping_ret rest
  · exact keeping_ret rest

/-- **The policy only derives events that may be ingested.** -/
theorem nextPolicyEvent (ctx : SettlementContext) (shown : W.Tip tip) :
    Keeping W.regime W.Memory (fun result => ∀ event, result = some event → W.Event event)
      (Settlement.nextPolicyEvent ctx tip) := by
  refine keeping_get.bind fun engine memory => ?_
  split
  · exact keeping_ret nofun
  · split
    · split
      · split
        · refine (W.appliedEvidenceOf W.appliedFunding _).bind fun applied observed => ?_
          cases applied with
          | none => exact W.claimPolicy ctx shown
          | some evidence =>
            refine keeping_ret ?_
            rintro event ⟨⟩
            exact (W.funding evidence (observed evidence rfl)).2
        · exact W.claimPolicy ctx shown
      · refine keeping_ret ?_
        rintro event ⟨⟩
        exact W.quiet _ rfl
    · exact W.claimPolicy ctx shown

variable {W} in
/-- Settling a refund forgets it. -/
theorem Memory.settlePolicyEvent (memory : W.Memory engine)
    (event : SettlementEvent) : W.Memory (Settlement.settlePolicyEvent event engine) := by
  cases event with
  | refundConfirmed evidence =>
    exact ⟨memory.binding, memory.limit, memory.reorder,
      fun other mem => memory.pending other (List.mem_of_mem_filter mem)⟩
  | _ => exact ⟨memory.binding, memory.limit, memory.reorder, memory.pending⟩

/-- Every round ingests what the policy derives. -/
theorem policyRounds (shown : W.Tip tip) (rounds : Nat) :
    W.Keeps (Settlement.policyRounds tip rounds) := by
  induction rounds with
  | zero => exact keeping_ret trivial
  | succ rounds ih =>
    refine W.snapshot.bind fun snapshot _ => (W.nextPolicyEvent _ shown).bind
      fun event allowed => ?_
    cases event with
    | none => exact keeping_ret trivial
    | some event =>
      refine (W.engineIngest (allowed event rfl) W.cursor_none).bind fun result _ => ?_
      cases result with
      | none => exact keeping_ret trivial
      | some result =>
        exact (keeping_modify fun _ memory => memory.settlePolicyEvent event).bind
          fun _ _ => ih

/-- The policy, under the tip the chain shows. -/
theorem applyPolicy (tips : ∀ s s' (tip : UInt64), E.step (.chain .tipHeight) s (.ok tip) s' →
    W.inv s → W.Tip tip) :
    W.Keeps Settlement.applyPolicy :=
  (W.askChain .tipHeight (W.kept _ · · · trivial trivial) tips).bind fun _ shown => W.policyRounds shown _

/-! ## The outbox -/

section Dispatch

variable (loud : ∀ op s r s', b.EngineOp op → E.step op s r s' → W.inv s → W.inv s')
include loud

/-- Completing an effect. -/
theorem completeEffect (effect : ClaimedEffect) : W.Keeps (Settlement.completeEffect effect) :=
  (W.askStore (.completeEffect _ _) (loud _ · · · trivial) (Q := fun _ => True)
    fun _ _ _ _ _ => trivial).bind fun _ _ => W.modifyReport _

/-- Rewinding the scanner. -/
theorem rewindTo (height : UInt64) : W.Keeps (Settlement.rewindTo height) := by
  refine keeping_get.bind fun engine _ => ?_
  dsimp only
  split
  · exact (W.askChain _ (loud _ · · · trivial) (Q := fun _ => True) fun _ _ _ _ _ => trivial).bind
      fun _ _ => keeping_modify fun _ memory => ⟨memory.binding, memory.limit, memory.reorder, memory.pending⟩
  · exact keeping_ret trivial

/-- Dispatching one effect. -/
theorem dispatchEffect (effect : ClaimedEffect) : W.Keeps (Settlement.dispatchEffect effect) := by
  have executes : W.Keeps (executeEffect effect : EngineAct EffectOutcome) :=
    Keeping.call (I := Ports) (Op.execute effect) (fun r => .ok r) (loud _ · · · trivial)
      fun _ _ _ _ _ _ _ => trivial
  unfold Settlement.dispatchEffect
  split
  · exact (W.rewindTo loud _).bind fun _ _ => W.completeEffect loud effect
  · refine executes.bind fun outcome _ => ?_
    cases outcome with
    | completed => exact W.completeEffect loud effect
    | retryLater => exact keeping_ret trivial
    | rejected => exact W.modifyReport _

/-- **Dispatch keeps to the walk.** -/
theorem dispatch (now : Int) : W.Keeps (Settlement.dispatch now) :=
  keeping_get.bind fun _ _ => (W.askStore (.readyOutbox _ _ _) (loud _ · · · trivial) (Q := fun _ => True)
    fun _ _ _ _ _ => trivial).bind fun _ _ => (W.modifyReport _).bind fun _ _ =>
      Keeping.forEach fun effect _ => W.dispatchEffect loud effect

end Dispatch

/-! ## Recovery -/

/-- Resuming at the durable cursor. -/
theorem resumeCursor (stored : Option StoredCursor) : W.Keeps (Settlement.resumeCursor stored) := by
  unfold Settlement.resumeCursor
  split
  · split
    · exact keeping_ret trivial
    · exact keeping_fail _
  · exact W.askChain .genesisCursor (W.kept _ · · · trivial trivial) fun _ _ _ _ _ => trivial

/-- **An engine that recovers remembers only what it may.** -/
theorem recover : W.Keeps Settlement.recover := by
  have lifted {β : Type} {x : Except SettlementEngineError β} :
      W.Keeps (Act.lift x : EngineAct β) :=
    keeping_lift fun _ _ => trivial
  refine keeping_get.bind fun engine memory => W.snapshot.bind fun snapshot _ => ?_
  refine lifted.bind fun _ _ => ?_
  refine (W.askOwn (.journal _) memory.settlementId trivial).bind fun rows _ => ?_
  refine lifted.bind fun replayed _ => ?_
  refine lifted.bind fun _ _ => ?_
  refine lifted.bind fun _ _ => ?_
  refine (W.askOwn (.terminal _) memory.settlementId trivial).bind fun terminal _ => ?_
  refine lifted.bind fun _ _ => ?_
  refine (W.askOwn (.cursor _ _) memory.settlementId trivial).bind fun stored _ => ?_
  refine (W.resumeCursor stored).bind fun scanCursor _ => ?_
  rw [memory.settlementId]
  refine (W.askStore (.evidence _ _) (W.kept _ · · · rfl trivial) W.parked).bind fun parked allowed => ?_
  refine (keeping_lift fun events h => h).bind fun events inverted => ?_
  refine keeping_modify fun engine memory => ⟨memory.binding, memory.limit, memory.reorder.adopt ?_,
    memory.pending⟩
  intro env mem
  obtain ⟨event, hevent, rfl⟩ := List.mem_map.mp mem
  obtain ⟨row, hrow, hinvert⟩ := (mem_of_mapM_eq_ok inverted).mp hevent
  obtain ⟨accepted, derived⟩ := invertEvidenceEvent_sound hinvert
  rw [memory.envelopeFor]
  exact allowed row hrow event accepted derived

/-- An action that keeps the walk, seen with a weaker invariant. -/
theorem safe {x : Client Engine ε α} {base : σ → Prop}
    (h : Keeping W.regime W.Memory Q x) (weaker : ∀ s, W.inv s → base s)
    {s : σ} (memory : W.Memory engine) (start : W.inv s) :
    Safe E base x engine s (fun a m t => W.Memory m ∧ Q a ∧ W.inv t)
      (fun _ m t => W.Memory m ∧ W.inv t) :=
  (h.safe engine s memory start).within weaker

end Walk

/-- The engine as it is before it recovers. -/
def Binding.fresh (b : Binding) (scanCursor : ChainCursor) : Engine :=
  { chainId := b.chainId, settlementId := b.settlementId, terms := b.terms, termsHash := b.termsHash
    policy := b.policy, scanCursor := scanCursor, pendingRefunds := [], reorder := []
    timelockCommitted := false, leaseMs := 30000, maxEffectsPerTick := 32, report := {} }

/-- **Opening an engine**: what the store shows of the terms decides how it recovers. -/
theorem openEngine_keeping {σ : Type} {G : Regime Ports σ} {chainId : ChainId} {id : SettlementId}
    {Q : Option (SettlementTerms × Digest32) → Prop} {M : Engine → Prop}
    (asks : Keeping G (fun _ => True) Q
      (askStore (.terms id) : Client Unit SettlementEngineError _))
    (genesis : Keeping G (fun _ => True) (fun _ => True)
      (askChain .genesisCursor : Client Unit SettlementEngineError _))
    (recovers : ∀ terms termsHash policy scanCursor, Q (some (terms, termsHash)) →
      terms.domLeg.chainId = chainId → policyOf terms = .ok policy →
      ∃ N : Engine → Prop,
        N (Binding.fresh ⟨chainId, id, terms, termsHash, policy⟩ scanCursor) ∧
          Keeping G N (fun _ => True) recover ∧ ∀ engine, N engine → M engine) :
    Keeping G (fun _ => True) M (openEngine chainId id) := by
  refine asks.bind fun found shown => ?_
  cases found with
  | none => exact keeping_fail _
  | some binding =>
    obtain ⟨terms, termsHash⟩ := binding
    refine (keeping_lift fun _ h => rejectIf_eq_ok.mp h).bind fun _ chain => ?_
    refine (keeping_lift fun _ h => h).bind fun policy hpolicy => ?_
    refine genesis.bind fun scanCursor _ => ?_
    obtain ⟨N, start, keeps, weaker⟩ :=
      recovers terms termsHash policy scanCursor shown (not_not.mp chain) hpolicy
    refine ⟨fun m s _ inv => Prog.Safe.bind (Prog.Safe.mono (keeps.safe _ s start inv) ?_)⟩
    rintro ⟨_ | _, engine⟩ t after
    · exact fun t' moved => ⟨trivial, G.stable _ _ moved after.2⟩
    · exact fun t' moved => ⟨trivial, weaker engine after.1, G.stable _ _ moved after.2.2⟩

/-! ## A tick -/

/-- What an engine forgets when a reorganisation is reported. -/
def Engine.forget (engine : Engine) (fromHeight : UInt64) : Engine := { engine with
  pendingRefunds := engine.pendingRefunds.filter (·.blockHeight < fromHeight)
  reorder := engine.reorder.dropFrom fromHeight }

/-- **A walk for each list of records still to come**, and what all of them have in common. -/
structure Passage {σ : Type} (E : Environment Ports σ) (b : Binding) where
  stage : List ChainRecord → Walk E b
  batch : List ChainRecord
  base : σ → Prop
  Base : Engine → Prop
  stable : ∀ s s', E.rely s s' → base s → base s'
  kept : ∀ rest s, (stage rest).inv s → base s
  remembered : ∀ rest engine, (stage rest).Memory engine → Base engine
  scanned : ∀ s s' start (records : List ChainRecord) (position : ChainCursor),
    E.step (.chain (.scan start)) s (.ok (records, position)) s' → (stage batch).inv s →
      stage records = stage batch ∧ ∀ rest, (stage rest).Position position ∧
        ∀ record ∈ records, (stage rest).Observed record
  tip : ∀ s s' (tip : UInt64), E.step (.chain .tipHeight) s (.ok tip) s' → (stage []).inv s →
    (stage []).Tip tip
  passed : ∀ record rest, (∀ height anchor, record ≠ .reorg height anchor) →
    (∀ s, (stage (record :: rest)).inv s → (stage rest).inv s) ∧
      ∀ engine, (stage (record :: rest)).Memory engine → (stage rest).Memory engine
  invalidated : ∀ s s' height anchor rest count,
    E.step (.store (.invalidateEvidenceFrom b.settlementId height)) s (.ok count) s' →
      (stage (.reorg height anchor :: rest)).inv s → (stage rest).inv s'
  forgotten : ∀ engine height anchor rest,
    (stage (.reorg height anchor :: rest)).Memory engine →
      (stage rest).Memory (engine.forget height)

/-- A walk on which everything may be shown, whatever records are to come. -/
def Walk.passage {σ : Type} {E : Environment Ports σ} {b : Binding} (W : Walk E b)
    (observed : ∀ record, W.Observed record) (tips : ∀ tip, W.Tip tip)
    (scanned : ∀ s s' start (batch : List ChainRecord × ChainCursor),
      E.step (.chain (.scan start)) s (.ok batch) s' → W.Position batch.2) : Passage E b where
  stage _ := W
  batch := []
  base := W.inv
  Base := W.Memory
  stable := W.stable
  kept _ _ h := h
  remembered _ _ h := h
  scanned _ _ _ _ _ done _ := ⟨rfl, fun _ => ⟨scanned _ _ _ _ done, fun record _ => observed record⟩⟩
  tip _ _ tip _ _ := tips tip
  passed _ _ _ := ⟨fun _ h => h, fun _ h => h⟩
  invalidated _ _ _ _ _ _ := W.kept (.store (.invalidateEvidenceFrom _ _)) _ _ _ rfl trivial
  forgotten _ _ _ _ memory := ⟨memory.binding, memory.limit,
    fun env mem => memory.reorder env (List.mem_of_mem_filter mem), fun _ _ => observed _⟩

namespace Passage

variable {σ : Type} {E : Environment Ports σ} {b : Binding} (P : Passage E b) {engine : Engine} {s : σ}

variable {scannedTo : ChainCursor} {last : Option Nat} {rest : List ChainRecord}

/-- A reorganisation: the rows are invalidated, then the engine forgets, then the event is
ingested. -/
theorem reorg {height : UInt64} {anchor : Digest32} {index : Nat}
    (memory : (P.stage (.reorg height anchor :: rest)).Memory engine)
    (start : (P.stage (.reorg height anchor :: rest)).inv s) :
    Safe E P.base (consume scannedTo last (.reorg height anchor, index)) engine s
      (fun _ m t => (P.stage rest).Memory m ∧ (P.stage rest).inv t)
      (fun _ m t => P.Base m ∧ P.base t) := by
  refine Safe.bind (Safe.get fun t moved => Safe.bind ?_)
  have own := memory.settlementId
  refine storeCall_safe fun s₁ r s₂ moved' done => ?_
  rw [own] at done
  have before := (P.stage _).stable _ _ moved' ((P.stage _).stable _ _ moved start)
  have still := (P.stage _).kept (.store (.invalidateEvidenceFrom b.settlementId height)) s₁ r s₂ rfl
    trivial done before
  refine ⟨P.kept _ _ still, fun t₁ moved₁ => ⟨?_, ?_⟩⟩
  · rintro count rfl
    have after := (P.stage rest).stable _ _ moved₁ (P.invalidated _ _ _ _ _ _ done before)
    refine Safe.bind (Safe.modify fun t₂ moved₂ => ?_)
    have reported := (P.stage rest).engineIngest ((P.stage rest).quiet (.reorgInvalidated height anchor)
      rfl) (P.stage rest).cursor_none
    refine Safe.bind (((P.stage rest).safe reported (P.kept rest)
      (P.forgotten engine height anchor rest memory) ((P.stage rest).stable _ _ moved₂ after)).mono ?_ ?_)
    · exact fun _ m t₃ h => Safe.ret fun t₄ moved₄ => ⟨h.1, (P.stage rest).stable _ _ moved₄ h.2.2⟩
    · exact fun _ m t₃ h t₄ moved₄ => ⟨P.remembered _ _ h.1, P.stable _ _ moved₄ (P.kept _ _ h.2)⟩
  · rintro e rfl t₂ moved₂
    exact ⟨P.remembered _ _ memory, P.stable _ _ moved₂ (P.stable _ _ moved₁ (P.kept _ _ still))⟩

/-- One record: from the walk with it to come to the walk without. -/
theorem consume {entry : ChainRecord × Nat} (position : (P.stage rest).Position scannedTo)
    (observed : (P.stage rest).Observed entry.1)
    (memory : (P.stage (entry.1 :: rest)).Memory engine) (start : (P.stage (entry.1 :: rest)).inv s) :
    Safe E P.base (Settlement.consume scannedTo last entry) engine s
      (fun _ m t => (P.stage rest).Memory m ∧ (P.stage rest).inv t)
      (fun _ m t => P.Base m ∧ P.base t) := by
  obtain ⟨record, index⟩ := entry
  have keeping {Q : Unit → Prop} {x : EngineAct Unit}
      (other : ∀ height anchor, record ≠ .reorg height anchor)
      (h : Keeping (P.stage rest).regime (P.stage rest).Memory Q x) :
      Safe E P.base x engine s (fun _ m t => (P.stage rest).Memory m ∧ (P.stage rest).inv t)
        (fun _ m t => P.Base m ∧ P.base t) := by
    obtain ⟨passes, remembers⟩ := P.passed record rest other
    exact ((P.stage rest).safe h (P.kept rest) (remembers _ memory) (passes _ start)).mono
      (fun _ _ _ done => ⟨done.1, done.2.2⟩)
      fun _ _ _ done => ⟨P.remembered _ _ done.1, P.kept _ _ done.2⟩
  cases record with
  | reorg height anchor => exact P.reorg memory start
  | funding evidence =>
    exact keeping nofun ((P.stage rest).observe ((P.stage rest).funding evidence observed).1 position)
  | claim evidence =>
    exact keeping nofun ((P.stage rest).observe ((P.stage rest).claim evidence observed).1 position)
  | refund evidence =>
    refine keeping nofun (keeping_modify fun engine memory => ?_)
    split
    · exact memory
    · refine ⟨memory.binding, memory.limit, memory.reorder, fun other mem => ?_⟩
      rcases mem_snoc.mp mem with mem | rfl
      · exact memory.pending other mem
      · exact observed

/-- **The batch**: at its end no record is still to come. -/
theorem consumeBatch {records : List ChainRecord}
    (shown : ∀ rest, (P.stage rest).Position scannedTo ∧
      ∀ record ∈ records, (P.stage rest).Observed record)
    (memory : (P.stage records).Memory engine) (start : (P.stage records).inv s) :
    Safe E P.base (Settlement.consumeBatch records scannedTo) engine s
      (fun _ m t => (P.stage []).Memory m ∧ (P.stage []).inv t)
      (fun _ m t => P.Base m ∧ P.base t) := by
  refine Safe.bind (Safe.modify fun t moved => Safe.bind ?_)
  let counted : Engine := { engine with
    report := { engine.report with recordsSeen := records.length } }
  let Ahead (items : List (ChainRecord × Nat)) (m : Engine) (t : σ) : Prop :=
    (∀ item ∈ items, item.1 ∈ records) ∧
      (P.stage (items.map Prod.fst)).Memory m ∧ (P.stage (items.map Prod.fst)).inv t
  have loop : Safe E P.base
      (Act.forEach (Settlement.consume scannedTo (lastIngestible records)) records.zipIdx) counted t
      (fun _ => Ahead []) (fun _ m t => ∀ t', E.rely t t' → P.Base m ∧ P.base t') := by
    refine Safe.forEach Ahead
      (fun items m t t' moved h => ⟨h.1, h.2.1, (P.stage _).stable _ _ moved h.2.2⟩) ?_ ?_
    · rintro item items m t ⟨mem, remembers, inv⟩
      have observed := (shown (items.map Prod.fst)).2 _ (mem item List.mem_cons_self)
      refine (P.consume (shown _).1 observed remembers inv).mono ?_ ?_
      · exact fun _ m' t' h => ⟨fun other hother => mem other (List.mem_cons_of_mem _ hother), h⟩
      · exact fun _ m' t₁ h t₂ moved₂ t₃ moved₃ =>
          ⟨h.1, P.stable _ _ moved₃ (P.stable _ _ moved₂ h.2)⟩
    · show (∀ item ∈ records.zipIdx, item.1 ∈ records) ∧ _ ∧ _
      rw [List.zipIdx_map_fst]
      refine ⟨fun item mem => ?_, ⟨memory.binding, memory.limit, memory.reorder, memory.pending⟩,
        (P.stage _).stable _ _ moved start⟩
      exact (List.mem_zipIdx' mem).2 ▸ List.getElem_mem _
  refine loop.mono (fun _ m t₁ done => Safe.modify fun t₂ moved₂ => ?_) fun _ _ _ h => h
  obtain ⟨-, remembers, inv⟩ := done
  exact ⟨⟨remembers.binding, remembers.limit, remembers.reorder, remembers.pending⟩,
    (P.stage _).stable _ _ moved₂ inv⟩

/-- **A tick** keeps what all stages have in common, wherever it stops. -/
theorem tick (now : Int) (loud : ∀ op s r s', b.EngineOp op → E.step op s r s' →
      (P.stage []).inv s → (P.stage []).inv s')
    (memory : (P.stage P.batch).Memory engine) (start : (P.stage P.batch).inv s) :
    Safe E P.base (Settlement.tick now) engine s
      (fun _ m t => P.Base m ∧ P.base t) (fun _ m t => P.Base m ∧ P.base t) := by
  have stopped {rest : List ChainRecord} {m : Engine} {t t' : σ} (moved : E.rely t t')
      (h : (P.stage rest).Memory m ∧ (P.stage rest).inv t) : P.Base m ∧ P.base t' :=
    ⟨P.remembered _ _ h.1, P.stable _ _ moved (P.kept _ _ h.2)⟩
  let W := P.stage P.batch
  -- up to the scan all records are still to come
  have drains : W.Keeps (Act.mapError SettlementEngineError.ingest (buffered drainParked)) :=
    (W.buffered W.drainParked).mapError _
  have scans : Keeping W.regime W.Memory (fun batch => P.stage batch.1 = W ∧
      ∀ rest, (P.stage rest).Position batch.2 ∧ ∀ record ∈ batch.1, (P.stage rest).Observed record)
      scan :=
    keeping_get.bind fun engine _ => W.askChain (.scan engine.scanCursor)
      (W.kept _ · · · trivial trivial)
      fun s s' batch done inv => P.scanned s s' _ batch.1 batch.2 done inv
  -- after the batch none is
  let V := P.stage []
  have ends : Keeping V.regime V.Memory (fun _ => True) (do
      applyPolicy
      dispatch now
      let last ← snapshot
      modifyReport fun report => { report with state := some last.context.state }
      let engine ← Act.get
      pure engine.report) :=
    (V.applyPolicy P.tip).bind fun _ _ => (V.dispatch loud now).bind fun _ _ => V.snapshot.bind fun _ _ =>
      (V.modifyReport _).bind fun _ _ => keeping_get.bind fun _ _ => keeping_ret trivial
  refine Safe.bind ((W.safe (W.modifyReport _) (P.kept _) memory start).mono (fun _ m t h => ?_)
    fun _ _ _ h _ moved => stopped moved h)
  refine Safe.bind ((W.safe drains (P.kept _) h.1 h.2.2).mono (fun _ m t h => ?_)
    fun _ _ _ h _ moved => stopped moved h)
  refine Safe.bind ((W.safe scans (P.kept _) h.1 h.2.2).mono (fun batch m t h => ?_)
    fun _ _ _ h _ moved => stopped moved h)
  obtain ⟨remembers, ⟨same, shown⟩, inv⟩ := h
  rw [← same] at remembers inv
  refine Safe.bind ((P.consumeBatch shown remembers inv).mono (fun _ m t h => ?_)
    fun _ _ _ h _ moved => ⟨h.1, P.stable _ _ moved h.2⟩)
  exact (V.safe ends (P.kept _) h.1 h.2).mono (fun _ _ _ h => stopped (E.refl _) ⟨h.1, h.2.2⟩)
    fun _ _ _ h => stopped (E.refl _) h

end Passage

end DomProtocol.Settlement
