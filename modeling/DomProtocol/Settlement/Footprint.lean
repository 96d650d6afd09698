import DomProtocol.Settlement.Engine

/-! # What the engine calls

Which operations each part of an engine may call, and what follows for the tables one operation at a
time.

**`IngestOp env cursor`** are the operations of one ingestion of an envelope with a cursor update.
Only `dispatch` claims, executes or completes effects or rewinds the scanner: every other operation
of an engine is quiet (**`QuietOp`**). -/

namespace DomProtocol.Settlement

open Act (Silent silent_fail silent_ret)

variable [Digests] {μ : Type} {allowed : Op → Prop}

variable {op : StoreOp} {cursorUpdate : Option CursorUpdate}

/-! ## Ingestion -/

/-- The operations of one ingestion. -/
def IngestOp (env : EventEnvelope) (cursorUpdate : Option CursorUpdate) : Op → Prop
  | .store (.load id) => id = env.settlementId
  | .store (.committedEvent id eventId) => id = env.settlementId ∧ eventId = env.eventId
  | .store (.commitTransition req) =>
    req.env = env ∧ req.cursor = cursorUpdate ∧
      req.effects = effectsToOutbox env req.transition.effects
  | .store (.parkEvidence id evidenceId reference) =>
    id = env.settlementId ∧ evidenceId = env.eventId ∧
      acceptedEvidence env.event = some reference
  | .store (.recordLateEvidence id evidenceId _) => id = env.settlementId ∧ evidenceId = env.eventId
  | .store (.invalidateEvidenceFrom id _) => id = env.settlementId
  | .store (.reaffirmEvidence id evidenceId) => id = env.settlementId ∧ evidenceId = env.eventId
  | _ => False

/-- Calling an operation uses that operation only. -/
theorem storeCall_silent (h : allowed (.store op)) :
    Silent (I := Ports) allowed (storeCall op : Client μ StorePortError op.Result) :=
  ⟨⟨fun _ => ⟨h, fun _ => trivial⟩⟩, fun _ _ => rfl⟩

/-- So does asking the store for it. -/
theorem ask_silent (h : allowed (.store op)) :
    Silent (I := Ports) allowed (ask op : Client μ IngestError op.Result) :=
  (storeCall_silent h).mapError _

/-- A commit is of the transition of the loaded snapshot. -/
def CommitsFrom (snapshot : SettlementSnapshot) : Op → Prop
  | .store (.commitTransition req) => req.expectedRevision = snapshot.context.revision ∧
      transition snapshot.context req.env.event = .ok req.transition
  | _ => True

/-- The operations of an ingestion with a loaded snapshot. -/
def DeliverOp (snapshot : SettlementSnapshot) (env : EventEnvelope)
    (cursorUpdate : Option CursorUpdate) (op : Op) : Prop :=
  IngestOp env cursorUpdate op ∧ CommitsFrom snapshot op

variable {env : EventEnvelope} {snapshot : SettlementSnapshot}

/-- Committing keeps to the operations of its delivery. -/
theorem commitAccepted_silent {t : Transition}
    (accepted : transition snapshot.context env.event = .ok t) :
    Silent (I := Ports) (DeliverOp snapshot env cursorUpdate)
      (commitAccepted snapshot env t cursorUpdate : Client μ IngestError IngestResult) := by
  refine Silent.bind (ask_silent ⟨⟨rfl, rfl, rfl⟩, rfl, accepted⟩) fun result => ?_
  cases result <;> exact silent_ret _

/-- So does acknowledging a redelivery. -/
theorem acknowledge_silent : Silent (I := Ports) (DeliverOp snapshot env cursorUpdate)
      (acknowledge snapshot env cursorUpdate : Client μ IngestError IngestResult) := by
  have hreaffirm : Silent (I := Ports) (DeliverOp snapshot env cursorUpdate)
      (do let _ ← ask (.reaffirmEvidence env.settlementId env.eventId)
          pure .duplicate : Client μ IngestError IngestResult) :=
    Silent.bind (ask_silent ⟨⟨rfl, rfl⟩, trivial⟩) fun _ => silent_ret _
  unfold acknowledge
  split
  · exact silent_ret _
  · split
    · exact hreaffirm
    · split
      · rename_i accepted
        exact commitAccepted_silent accepted
      · exact hreaffirm

/-- So does delivering a new envelope. -/
theorem deliver_silent : Silent (I := Ports) (DeliverOp snapshot env cursorUpdate)
      (deliver snapshot env cursorUpdate : Client μ IngestError IngestResult) := by
  unfold deliver
  split
  · rename_i accepted
    refine Silent.bind ?_ fun _ => commitAccepted_silent accepted
    unfold invalidateBefore
    split
    · exact Silent.bind (ask_silent ⟨rfl, trivial⟩) fun _ => silent_ret _
    · exact silent_ret _
  · split
    · split
      · exact silent_fail _
      · rename_i hreference
        exact Silent.bind (ask_silent ⟨⟨rfl, rfl, hreference⟩, trivial⟩) fun _ =>
          silent_ret _
    · exact silent_fail _

/-- So does an ingestion once the snapshot is loaded. -/
theorem ingestBound_silent : Silent (I := Ports) (DeliverOp snapshot env cursorUpdate)
      (ingestBound snapshot env cursorUpdate : Client μ IngestError IngestResult) := by
  refine Silent.bind (ask_silent ⟨⟨rfl, rfl⟩, trivial⟩) fun committed => ?_
  cases committed with
  | some bytes =>
    dsimp only
    split
    · exact silent_fail _
    · exact acknowledge_silent
  | none =>
    dsimp only
    split
    · exact Silent.bind (ask_silent ⟨⟨rfl, rfl⟩, trivial⟩) fun _ => silent_ret _
    · exact deliver_silent

/-- **The footprint of one ingestion.** The client's memory plays no part in it. -/
theorem ingestEvent_silent (env : EventEnvelope) (cursorUpdate : Option CursorUpdate) :
    Silent (I := Ports) (IngestOp env cursorUpdate)
      (ingestEvent env cursorUpdate : Client μ IngestError IngestResult) := by
  refine Silent.bind (ask_silent rfl) fun loaded => ?_
  cases loaded with
  | none => exact silent_fail _
  | some snapshot =>
    dsimp only
    split
    · exact silent_fail _
    · exact ⟨ingestBound_silent.uses.mono fun _ h => h.1, ingestBound_silent.ends⟩

/-! ## Outside dispatch -/

/-- The operations of an engine that hand out, execute and complete no effect and do not rewind the
scanner. What they commit enqueues the effects of its own envelope. -/
def QuietOp : Op → Prop
  | .store (.commitTransition req) => req.effects = effectsToOutbox req.env req.transition.effects
  | .store (.readyOutbox _ _ _) | .store (.completeEffect _ _) => False
  | .chain (.cursorAt _) => False
  | .execute _ => False
  | _ => True

/-- Ingesting is quiet. -/
theorem IngestOp.quiet {op : Op} (h : IngestOp env cursorUpdate op) : QuietOp op := by
  cases op with
  | store op =>
    cases op with
    | commitTransition req =>
      obtain ⟨rfl, -, effects⟩ := h
      exact effects
    | readyOutbox => exact h
    | completeEffect => exact h
    | _ => trivial
  | chain op => exact h.elim
  | execute effect => exact h

end DomProtocol.Settlement
