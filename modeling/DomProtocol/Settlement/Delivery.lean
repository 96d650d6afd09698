import DomProtocol.Settlement.Isolation
import DomProtocol.Lib.Loops

/-! # Ingestion over a store that answers

What becomes of an envelope that is delivered for the first time to a store that is always
available. The store has a **`Desk`** for a batch of envelopes if it has the settlement they are
bound to and nothing in its tables contradicts them. Then an envelope that is not journalled yet is
recorded late, committed or parked (**`Ingested`**), as the machine says, and the desk is kept:
`Desk.late`, `Desk.commit` and `Desk.park`. -/

namespace DomProtocol.Settlement

variable [Digests] {μ : Type}

/-! ## Executions -/

/-- How a program ends over a store that answers. -/
abbrev Runs {ε α : Type} (x : Client μ ε α) (m : μ) (s : Store) (outcome : Except ε α) (m' : μ)
    (s' : Store) : Prop :=
  Act.Runs (I := Ports) Store.respond x m s outcome m' s'

/-- An operation the store performs. -/
theorem runs_ask {op : StoreOp} {m : μ} {s s' : Store} {value : op.Result}
    (done : s.exec op = .ok (value, s')) :
    Runs (ask op) m s (.ok value) m s' := by
  have answers : Store.respond (.store op) s = (.ok value, s') := by
    simp only [Store.respond, done]
  unfold Runs Act.Runs ask Act.mapError storeCall
  simp only [Prog.bind, Prog.run]
  rw [show Store.respond (Op.store op) s = (.ok value, s') from answers]
  rfl

/-- An operation the store refuses. -/
theorem runs_ask_error {op : StoreOp} {m : μ} {s : Store} {e : StorePortError}
    (refused : s.exec op = .error e) :
    Runs (ask op) m s (.error (.store e)) m s := by
  have answers : Store.respond (.store op) s = (.error e, s) := by
    simp only [Store.respond, refused]
  unfold Runs Act.Runs ask Act.mapError storeCall
  simp only [Prog.bind, Prog.run]
  rw [show Store.respond (Op.store op) s = (.error e, s) from answers]
  rfl

/-- The snapshot that rows are loaded as. -/
def Rows.snapshot (rows : Rows) (id : SettlementId) : SettlementSnapshot :=
  ⟨id, rows.terms.sessionId, rows.termsHash, rows.context, rows.lastEventSeq⟩

/-- The commit that is requested for an accepted transition of a snapshot. -/
def Rows.request (rows : Rows) (env : EventEnvelope) (t : Transition)
    (cursor : Option CursorUpdate) : Store.Commit :=
  ⟨rows.context.revision, env, t, effectsToOutbox env t.effects, cursor⟩

/-- An envelope is in the journal. -/
def Rows.Has (rows : Rows) (env : EventEnvelope) : Prop := rows.journalled env.eventId ≠ none

instance (rows : Rows) (env : EventEnvelope) : Decidable (rows.Has env) :=
  inferInstanceAs (Decidable (_ ≠ none))

/-- An envelope is bound to the rows of its settlement. -/
structure Rows.Binds (rows : Rows) (id : SettlementId) (env : EventEnvelope) : Prop where
  own : env.settlementId = id
  session : env.sessionId = rows.terms.sessionId
  terms : env.termsHash = rows.termsHash
  version : env.protocolVersion = protocolVersion

/-- **A desk for a batch of envelopes**: their settlement exists, its snapshot is consistent, and no
row of a table contradicts an envelope of the batch. -/
structure Desk (id : SettlementId) (batch : List EventEnvelope) (s : Store) (rows : Rows) :
    Prop where
  found : s.settlement id = some rows
  revision : rows.revision = rows.context.revision
  state : rows.state = rows.context.state
  bound : ∀ env ∈ batch, rows.Binds id env
  numbered : ∀ row ∈ rows.journal, row.seq.toNat ≤ rows.lastEventSeq.toNat
  evidence : ∀ env ∈ batch, ∀ row ∈ rows.evidence, row.evidenceId = env.eventId →
    acceptedEvidence env.event = some row.reference
  outbox : ∀ env ∈ batch, ¬ rows.Has env → ∀ row ∈ s.outbox, ∀ effect,
    row.effectId ≠ deriveEffectId id env.eventId effect
  terminal : rows.context.state.isTerminal = false → rows.terminal = none

/-- The event must wait: the machine cannot accept it yet. -/
def Waits (ctx : SettlementContext) (event : SettlementEvent) : Prop :=
  transition ctx event = .error .illegalEvent ∨ transition ctx event = .error .preconditionUnsatisfied

/-- The counters and the height of a commit fit their columns. -/
structure Fits (rows : Rows) (env : EventEnvelope) : Prop where
  seq : rows.lastEventSeq.toNat + 1 < 2 ^ 63
  revision : rows.revision.toNat + 1 < 2 ^ 63
  height : ∀ reference, acceptedEvidence env.event = some reference →
    reference.blockHeight.toNat < 2 ^ 63

/-- **What became of an envelope**: the result, and the rows afterwards. -/
inductive Ingested (rows : Rows) (env : EventEnvelope) : IngestResult → Rows → Prop
  | late {rows' : Rows} (terminal : rows.context.state.isTerminal = true)
      (context : rows'.context = rows.context) (journal : rows'.journal = rows.journal)
      (seq : rows'.lastEventSeq = rows.lastEventSeq) (revision : rows'.revision = rows.revision) :
      Ingested rows env .lateNoEconomicEffect rows'
  | parked {rows' : Rows} (waits : Waits rows.context env.event)
      (context : rows'.context = rows.context) (journal : rows'.journal = rows.journal)
      (seq : rows'.lastEventSeq = rows.lastEventSeq) (revision : rows'.revision = rows.revision) :
      Ingested rows env .parkedForReorder rows'
  | committed {rows' : Rows} {t : Transition} (accepted : transition rows.context env.event = .ok t)
      (context : rows'.context = t.next)
      (journal : ∃ row, rows'.journal = rows.journal ++ [row] ∧ row.eventId = env.eventId)
      (seq : rows'.lastEventSeq.toNat = rows.lastEventSeq.toNat + 1)
      (revision : rows'.revision.toNat = rows.revision.toNat + 1) :
      Ingested rows env (.committed t.next.revision) rows'

namespace Desk

variable {id : SettlementId} {batch : List EventEnvelope} {s : Store} {rows : Rows}
  {env : EventEnvelope} {c : Option CursorUpdate} {m : μ}

variable {rows' : Rows} {reference : EvidenceRef} {t : Transition}

variable (desk : Desk id batch s rows)
include desk

/-- The snapshot is loaded. -/
theorem load : s.load id = .ok (some (rows.snapshot id)) := by
  simp [Store.load, desk.found, desk.revision, desk.state, rejectIf, Rows.snapshot]

/-- **A first delivery**: what is left to do after the snapshot was loaded and the journal was
searched. -/
theorem ingestEvent (mem : env ∈ batch) (fresh : ¬ rows.Has env)
    {outcome : Except IngestError IngestResult} {s' : Store}
    (run : Runs (if rows.context.state.isTerminal then do
        let _ ← ask (.recordLateEvidence env.settlementId env.eventId rows.context.state)
        pure .lateNoEconomicEffect
      else deliver (rows.snapshot id) env c) m s outcome m s') :
    Runs (Settlement.ingestEvent env c) m s outcome m s' := by
  have binds := desk.bound env mem
  have loaded : s.exec (.load env.settlementId) = .ok (some (rows.snapshot id), s) := by
    simp only [Store.exec, binds.own, desk.load]
    rfl
  have searched : s.exec (.committedEvent env.settlementId env.eventId) = .ok (none, s) := by
    simp only [Store.exec, Store.committedEvent, binds.own, desk.found, Option.bind_some,
      not_not.mp fresh]
    rfl
  refine (runs_ask loaded).bind ?_
  have same : ¬ ((rows.snapshot id).sessionId ≠ env.sessionId ∨
      (rows.snapshot id).termsHash ≠ env.termsHash) := by
    simp [Rows.snapshot, binds.session, binds.terms]
  simp only [if_neg same]
  exact (runs_ask searched).bind run

/-- Notes about evidence keep the desk. -/
theorem annotate (same : rows' = { rows with evidence := rows'.evidence, late := rows'.late })
    (evidence : ∀ env ∈ batch, ∀ row ∈ rows'.evidence, row.evidenceId = env.eventId →
      acceptedEvidence env.event = some row.reference) :
    Desk id batch (s.setRows id rows') rows' := by
  rw [same] at evidence ⊢
  exact ⟨Store.setRows_same .., desk.revision, desk.state,
    fun env mem => ⟨(desk.bound env mem).own, (desk.bound env mem).session,
      (desk.bound env mem).terms, (desk.bound env mem).version⟩,
    desk.numbered, evidence, desk.outbox, desk.terminal⟩

/-- **After the outcome**, the envelope is recorded late. -/
theorem late (mem : env ∈ batch) (fresh : ¬ rows.Has env)
    (terminal : rows.context.state.isTerminal = true) :
    ∃ s' rows', Runs (Settlement.ingestEvent env c) m s
      (.ok .lateNoEconomicEffect) m s' ∧ Desk id batch s' rows' ∧
        Ingested rows env .lateNoEconomicEffect rows' := by
  have own := (desk.bound env mem).own
  have recorded : ∃ s' rows', s.recordLateEvidence env.settlementId env.eventId rows.context.state =
      .ok s' ∧ Desk id batch s' rows' ∧ Ingested rows env .lateNoEconomicEffect rows' := by
    simp only [Store.recordLateEvidence, own, desk.found]
    split
    · exact ⟨s, rows, rfl, desk, .late terminal rfl rfl rfl rfl⟩
    · exact ⟨_, _, rfl, desk.annotate rfl desk.evidence, .late terminal rfl rfl rfl rfl⟩
  obtain ⟨s', rows', recorded, desk', ingested⟩ := recorded
  refine ⟨s', rows', desk.ingestEvent mem fresh ?_, desk', ingested⟩
  rw [if_pos terminal]
  have done : s.exec (.recordLateEvidence env.settlementId env.eventId rows.context.state) =
      .ok ((), s') := by
    simp only [Store.exec, recorded]
    rfl
  exact (runs_ask done).bind (Act.runs_pure _ _ _)

/-- **Before its turn**, evidence is parked. -/
theorem park (mem : env ∈ batch) (fresh : ¬ rows.Has env) (waits : Waits rows.context env.event)
    (carries : acceptedEvidence env.event = some reference)
    (fits : reference.blockHeight.toNat < 2 ^ 63)
    (distinct : ∀ other ∈ batch, other.eventId = env.eventId → other = env) :
    ∃ s' rows', Runs (Settlement.ingestEvent env c) m s
      (.ok .parkedForReorder) m s' ∧ Desk id batch s' rows' ∧
        Ingested rows env .parkedForReorder rows' := by
  have own := (desk.bound env mem).own
  have parked : ∃ result s' rows', s.parkEvidence env.settlementId env.eventId reference =
      .ok (result, s') ∧ Desk id batch s' rows' ∧ Ingested rows env .parkedForReorder rows' := by
    simp only [Store.parkEvidence, own, desk.found]
    cases known : rows.evidenceRow env.eventId with
    | some row =>
      -- the row was written for this very envelope
      have key : row.evidenceId = env.eventId := by
        simpa using List.find?_some known
      have row_mem : row ∈ rows.evidence := List.mem_of_find?_eq_some known
      have same := desk.evidence env mem row row_mem key
      rw [carries, Option.some.injEq] at same
      exact ⟨_, s, rows, if_pos same.symm, desk, .parked waits rfl rfl rfl rfl⟩
    | none =>
      have height : mapError mapCommitErr (fitsI64 reference.blockHeight) = .ok () :=
        mapError_eq_ok.mpr (Store.fitsI64_eq_ok.mpr fits)
      refine ⟨.parked, _, { rows with
        evidence := rows.evidence ++ [⟨env.eventId, reference, .parked⟩] }, ?_,
        desk.annotate rfl ?_, .parked waits rfl rfl rfl rfl⟩
      · rw [height]
        rfl
      · intro other other_mem row row_mem key
        rcases mem_snoc.mp row_mem with row_mem | rfl
        · exact desk.evidence other other_mem row row_mem key
        · rw [distinct other other_mem key.symm, carries]
  obtain ⟨result, s', rows', parked, desk', ingested⟩ := parked
  refine ⟨s', rows', desk.ingestEvent mem fresh ?_, desk', ingested⟩
  have live : ¬ rows.context.state.isTerminal = true := by
    intro terminal
    have refused := transition_of_terminal env.event terminal
    rcases waits with waits | waits <;> rw [refused] at waits <;> cases waits
  have done : s.exec (.parkEvidence env.settlementId env.eventId reference) = .ok (result, s') :=
    parked
  rw [if_neg live]
  unfold deliver
  rcases waits with waits | waits
  all_goals
    simp only [Rows.snapshot, waits, reduceCtorEq, or_true, true_or, if_true, carries]
    exact (runs_ask done).bind (Act.runs_pure _ _ _)

/-- The effects of a first delivery are enqueued. -/
theorem exists_enqueued (mem : env ∈ batch) (fresh : ¬ rows.Has env)
    (seq : UInt64) {effects : List Effect} (few : effects.length ≤ 1) :
    ∃ outbox, (effectsToOutbox env effects).foldlM (fun outbox effect =>
        Store.enqueue outbox env.settlementId seq false effect) s.outbox = .ok outbox ∧
      ∀ row ∈ outbox, row ∈ s.outbox ∨
        ∃ effect, row.effectId = deriveEffectId id env.eventId effect := by
  have own := (desk.bound env mem).own
  match effects, few with
  | [], _ => exact ⟨s.outbox, rfl, fun row row_mem => .inl row_mem⟩
  | [effect], _ =>
    have absent : ¬ (s.outbox.any fun row => row.settlementId = env.settlementId &&
        row.effectId = (OutboxEffect.derive env.settlementId env.eventId effect).effectId) = true := by
      rw [List.any_eq_true]
      rintro ⟨row, row_mem, same⟩
      simp only [OutboxEffect.derive, own, Bool.and_eq_true, decide_eq_true_eq] at same
      exact desk.outbox env mem fresh row row_mem effect same.2
    refine ⟨s.outbox ++ [⟨env.settlementId, deriveEffectId env.settlementId env.eventId effect, seq,
      effect, effectPayloadHash effect, false, 0, none, .runnerPayload⟩], ?_, ?_⟩
    · simp only [effectsToOutbox, List.map_cons, List.map_nil, List.foldlM_cons, List.foldlM_nil,
        Store.enqueue, if_neg absent]
      rfl
    · intro row row_mem
      rcases mem_snoc.mp row_mem with row_mem | rfl
      · exact .inl row_mem
      · exact .inr ⟨effect, by rw [own]⟩

/-- The desk after a commit was written. -/
theorem commitRows [LawfulDigests] (accepted : transition rows.context env.event = .ok t)
    (seq : rows.lastEventSeq.toNat + 1 < 2 ^ 63)
    (carries : acceptedEvidence env.event = some reference)
    (distinct : ∀ other ∈ batch, other.eventId = env.eventId → other = env)
    {outbox : List OutboxRow}
    (enqueued : ∀ row ∈ outbox, row ∈ s.outbox ∨
      ∃ effect, row.effectId = deriveEffectId id env.eventId effect)
    (written : rows' = Store.commitRows rows false (rows.request env t c)) :
    Desk id batch { s.setRows id rows' with outbox := outbox } rows' ∧
      Ingested rows env (.committed t.next.revision) rows' := by
  have next : (rows.lastEventSeq + 1).toNat = rows.lastEventSeq.toNat + 1 := by
    rw [UInt64.toNat_add]
    exact Nat.mod_eq_of_lt (by simp; omega)
  have live := (transition_eq_ok.mp accepted).1
  have grown : rows'.journal = rows.journal ++ [⟨rows.lastEventSeq + 1, rows.context.revision,
      t.next.revision, env.eventId, env, contextHash t.next⟩] := by
    rw [written]
    rfl
  constructor
  · constructor
    · exact Store.setRows_same ..
    · rw [written]
      rfl
    · rw [written]
      rfl
    · intro other other_mem
      rw [written]
      have binds := desk.bound other other_mem
      exact ⟨binds.own, binds.session, binds.terms, binds.version⟩
    · intro row row_mem
      have last : rows'.lastEventSeq = rows.lastEventSeq + 1 := by
        rw [written]
        rfl
      rw [last, next]
      rw [grown] at row_mem
      rcases mem_snoc.mp row_mem with row_mem | rfl
      · exact Nat.le_succ_of_le (desk.numbered row row_mem)
      · exact next.le
    · intro other other_mem row row_mem key
      have upserted : rows'.evidence = Store.upsertEvidence rows.evidence env.eventId reference := by
        rw [written]
        simp only [Store.commitRows, Rows.request, carries]
      rw [upserted, Store.upsertEvidence] at row_mem
      split at row_mem
      · obtain ⟨old, old_mem, rfl⟩ := List.mem_map.mp row_mem
        have kept := desk.evidence other other_mem old old_mem
        split at key
        · rename_i own
          simp only [own, if_true]
          exact kept key
        · rename_i foreign
          simp only [foreign, if_false]
          exact kept key
      · rcases mem_snoc.mp row_mem with row_mem | rfl
        · exact desk.evidence other other_mem row row_mem key
        · rw [distinct other other_mem key.symm, carries]
    · intro other other_mem absent row row_mem effect same
      -- an envelope that is still not journalled is another one, with other effects
      have missing : rows.journalled other.eventId = none ∧ other.eventId ≠ env.eventId := by
        simp only [Rows.Has, Rows.journalled, grown, List.find?_append, not_not] at absent
        rw [Option.or_eq_none_iff] at absent
        refine ⟨absent.1, fun equal => ?_⟩
        simp [equal] at absent
      rcases enqueued row row_mem with row_mem | ⟨own, derived⟩
      · exact desk.outbox other other_mem (not_not.mpr missing.1) row row_mem effect same
      · exact missing.2 (LawfulDigests.deriveEffectId_inj (same.symm.trans derived)).2.1
    · intro live'
      have state : rows'.context.state = t.next.state := by
        rw [written]
        rfl
      rw [state] at live'
      have outcome := desk.terminal live
      rw [written]
      simp only [Store.commitRows, Rows.request, live', Bool.false_eq_true, if_false, outcome]
  · refine .committed accepted ?_ ⟨_, grown, rfl⟩ ?_ ?_
    · rw [written]
      rfl
    · rw [written]
      exact next
    · have counted := transition_revision_toNat accepted
      rw [desk.revision, ← counted, written]
      rfl

/-- **In its turn**, the envelope is committed if the counters and its height fit their columns;
otherwise the store refuses. -/
theorem commit [LawfulDigests] (mem : env ∈ batch) (fresh : ¬ rows.Has env)
    (accepted : transition rows.context env.event = .ok t) (few : t.effects.length ≤ 1)
    (carries : acceptedEvidence env.event = some reference)
    (distinct : ∀ other ∈ batch, other.eventId = env.eventId → other = env) :
    (Fits rows env ∧ ∃ s' rows', Runs
        (Settlement.ingestEvent env c) m s (.ok (.committed t.next.revision)) m s' ∧
        Desk id batch s' rows' ∧ Ingested rows env (.committed t.next.revision) rows') ∨
      (¬ Fits rows env ∧ ∃ e, Runs
        (Settlement.ingestEvent env c) m s (.error e) m s) := by
  have own := (desk.bound env mem).own
  have version := (desk.bound env mem).version
  have live := (transition_eq_ok.mp accepted).1
  have counted := transition_revision_toNat accepted
  -- only evidence is delivered here, so no rows are invalidated first
  have quiet : (invalidateBefore env : Client μ IngestError Unit) = pure () := by
    unfold invalidateBefore
    split
    · rename_i event
      rw [event] at carries
      cases carries
    · rfl
  have delivered : ∀ {outcome : Except IngestError IngestResult} {s' : Store},
      Runs
        (commitAccepted (rows.snapshot id) env t c : Client μ IngestError IngestResult) m s
        outcome m s' →
      Runs (Settlement.ingestEvent env c) m s outcome m s' := by
    intro outcome s' run
    refine desk.ingestEvent mem fresh ?_
    rw [if_neg (by simp [live])]
    have step : transition (rows.snapshot id).context env.event = .ok t := accepted
    simp only [deliver, step, quiet]
    exact (Act.runs_pure () _ _).bind run
  obtain ⟨outbox, enqueued, origin⟩ :=
    desk.exists_enqueued mem fresh (rows.lastEventSeq + 1) few
  have appends : ∀ fits : Fits rows env,
      s.Appends rows false (rows.request env t c) outbox := by
    intro fits
    refine ⟨desk.revision, fits.seq, ?_, ?_, ?_, fits.height, enqueued, fun _ =>
      desk.terminal live⟩
    · have := fits.revision
      rw [desk.revision] at this
      exact Nat.lt_of_succ_lt this
    · have := fits.revision
      rw [desk.revision, ← counted] at this
      exact this
    · intro row row_mem
      constructor
      · intro same
        have bound := desk.numbered row row_mem
        rw [same, UInt64.toNat_add, Nat.mod_eq_of_lt (by have := fits.seq; simp; omega)] at bound
        simp at bound
      · intro same
        have none := not_not.mp fresh
        rw [Rows.journalled, List.find?_eq_none] at none
        exact none row row_mem (decide_eq_true same)
  by_cases fits : Fits rows env
  · refine .inl ⟨fits, ?_⟩
    obtain ⟨desk', ingested⟩ :=
      desk.commitRows accepted fits.seq carries distinct origin rfl
    refine ⟨_, _, delivered ?_, desk', ingested⟩
    have committed : s.exec (.commitTransition (rows.request env t c)) =
        .ok (.committed t.next.revision,
          { s.setRows id (Store.commitRows rows false (rows.request env t c)) with
            outbox := outbox }) := by
      simp only [Store.exec, Store.commitTransition, bind_eq_ok, rejectIf_eq_ok, mapError_eq_ok]
      refine ⟨(), not_not.mpr version, ?_⟩
      simp only [Store.commitInner, Rows.request, own, desk.found, not_not.mp fresh]
      exact Store.append_eq_ok.mpr ⟨outbox, appends fits, rfl, by simp only [own]⟩
    exact (runs_ask committed).bind (Act.runs_pure _ _ _)
  · refine .inr ⟨fits, ?_⟩
    cases refused : s.exec (.commitTransition (rows.request env t c)) with
    | error e => exact ⟨.store e, delivered (runs_ask_error refused).bind_error⟩
    | ok outcome =>
      -- a commit that was written fits
      obtain ⟨result, s'⟩ := outcome
      obtain ⟨rows₁, found₁, ⟨row, known, -⟩ | ⟨-, written⟩ | ⟨row, known, -⟩⟩ :=
        Store.commitTransition_cases refused
      all_goals
        simp only [Rows.request, own] at found₁
        cases desk.found.symm.trans found₁
      · exact absurd (known.symm.trans (not_not.mp fresh)) (Option.some_ne_none row)
      · obtain ⟨_, appends, -, -⟩ := Store.append_eq_ok.mp written
        refine absurd ⟨appends.seq, ?_, appends.height⟩ fits
        have := appends.resulting
        rw [desk.revision, ← counted]
        exact this
      · exact absurd (known.symm.trans (not_not.mp fresh)) (Option.some_ne_none row)

/-- **Out of order for good**, the envelope is refused by the machine. -/
theorem refuse (mem : env ∈ batch) (fresh : ¬ rows.Has env)
    (live : rows.context.state.isTerminal = false) {e : TransitionError}
    (refused : transition rows.context env.event = .error e)
    (hard : e ≠ .illegalEvent ∧ e ≠ .preconditionUnsatisfied) :
    Runs (Settlement.ingestEvent env c) m s
      (.error (.machine e)) m s := by
  refine desk.ingestEvent mem fresh ?_
  rw [if_neg (by simp [live])]
  have step : transition (rows.snapshot id).context env.event = .error e := refused
  simp only [deliver, step, hard.1, hard.2, or_self, if_false]
  exact Act.runs_fail _ _ _

end Desk

end DomProtocol.Settlement
