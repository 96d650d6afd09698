import DomProtocol.Settlement.Footprint

/-! # What one operation does to the tables

An operation on the settlement store is taken apart once here, and every property of a run is
derived from these facts:

* **`commitTransition_cases`** says when a commit succeeds and what it writes;
* **`Store.Grows`** is what every operation does: rows of the journal, of the evidence and of the
  late evidence are never deleted;
* the outbox keeps its entries, and only a commit adds some (`Store.exec_outbox`). -/

namespace DomProtocol.Settlement

variable [Digests]

/-! ## Commits -/

namespace Store

variable {s s' : Store} {rows : Rows} {req : Commit} {reapplying : Bool}

/-- The rows that were set are there. -/
@[simp] theorem setRows_same (s : Store) (id : SettlementId) (rows : Rows) :
    (s.setRows id rows).settlement id = some rows := Function.update_self ..

/-- The rows of other settlements stay. -/
theorem setRows_of_ne (s : Store) {id id' : SettlementId} (rows : Rows) (h : id' ≠ id) :
    (s.setRows id rows).settlement id' = s.settlement id' := Function.update_of_ne h ..

omit [Digests] in
/-- A value fits if it has a sign bit to spare. -/
theorem fitsI64_eq_ok {value : UInt64} {u : Unit} :
    fitsI64 value = .ok u ↔ value.toNat < 2 ^ 63 := by
  rw [fitsI64, rejectIf_eq_ok, Nat.not_le]

/-- The height of the evidence of a commit fits. -/
theorem Commit.checkHeight_eq_ok {u : Unit} :
    req.checkHeight = .ok u ↔ ∀ reference, acceptedEvidence req.env.event = some reference →
      reference.blockHeight.toNat < 2 ^ 63 := by
  unfold Commit.checkHeight
  split
  · rename_i reference h
    rw [fitsI64_eq_ok]
    simp [h]
  · rename_i h
    simp [h]

/-- The conditions under which the rows of a commit are written. -/
structure Appends (s : Store) (rows : Rows) (reapplying : Bool) (req : Commit)
    (outbox : List OutboxRow) : Prop where
  revision : rows.revision = req.expectedRevision
  seq : rows.lastEventSeq.toNat + 1 < 2 ^ 63
  expected : req.expectedRevision.toNat < 2 ^ 63
  resulting : req.transition.next.revision.toNat < 2 ^ 63
  fresh : ∀ row ∈ rows.journal, row.seq ≠ rows.lastEventSeq + 1 ∧
    row.eventId ≠ req.journalId reapplying
  height : ∀ reference, acceptedEvidence req.env.event = some reference →
    reference.blockHeight.toNat < 2 ^ 63
  enqueued : req.effects.foldlM (fun outbox effect => enqueue outbox req.env.settlementId
    (rows.lastEventSeq + 1) reapplying effect) s.outbox = .ok outbox
  terminal : req.transition.next.state.isTerminal = true → rows.terminal = none

/-- **When a commit is written and what it writes.** -/
theorem append_eq_ok {result : CommitResult} :
    s.append rows reapplying req = .ok (result, s') ↔
      ∃ outbox, s.Appends rows reapplying req outbox ∧
        result = .committed req.transition.next.revision ∧
        s' = { s.setRows req.env.settlementId (commitRows rows reapplying req) with
          outbox := outbox } := by
  simp only [append, bind_eq_ok, rejectIf_eq_ok, fitsI64_eq_ok, Commit.checkHeight_eq_ok,
    pure_eq_ok, Prod.mk.injEq]
  constructor
  · rintro ⟨-, hrevision, -, hseq, -, hexpected, -, hresulting, -, hfresh, -, hheight, outbox,
      henqueued, -, hterminal, rfl, rfl⟩
    refine ⟨outbox, ⟨not_not.mp hrevision, by omega, hexpected, hresulting, ?_, hheight,
      henqueued, ?_⟩, rfl, rfl⟩
    · intro row hrow
      exact ⟨fun h => hfresh ⟨row, hrow, .inl h⟩, fun h => hfresh ⟨row, hrow, .inr h⟩⟩
    · intro hstate
      by_contra hsome
      exact hterminal ⟨hstate, hsome⟩
  · rintro ⟨outbox, h, rfl, rfl⟩
    have hseq := h.seq
    refine ⟨(), not_not.mpr h.revision, (), by omega, (), h.expected, (), h.resulting, (), ?_, (),
      h.height, outbox, h.enqueued, (), ?_, rfl, rfl⟩
    · rintro ⟨row, hrow, hseq | hid⟩
      · exact (h.fresh row hrow).1 hseq
      · exact (h.fresh row hrow).2 hid
    · rintro ⟨hstate, hsome⟩
      exact hsome (h.terminal hstate)

/-- **Creating a settlement** that exists changes nothing; a new one has valid terms and a session of
its own. -/
theorem create_cases {terms : SettlementTerms} {snapshot : SettlementSnapshot}
    (h : s.create terms = .ok (snapshot, s')) :
    ∃ hash, terms.termsHash = .ok hash ∧ (s' = s ∨ s.settlement terms.settlementId = none ∧
      s.sessions terms.sessionId = none ∧
      s' = { s.setRows terms.settlementId (newRows terms hash) with
        sessions := Function.update s.sessions terms.sessionId (some terms.settlementId) }) := by
  simp only [create, bind_eq_ok, mapError_eq_ok] at h
  obtain ⟨hash, hashed, h⟩ := h
  refine ⟨hash, hashed, ?_⟩
  split at h
  · simp only [bind_eq_ok, pure_eq_ok, Prod.mk.injEq] at h
    obtain ⟨-, -, -, rfl⟩ := h
    exact .inl rfl
  · rename_i missing
    simp only [bind_eq_ok, pure_eq_ok, rejectIf_eq_ok, not_not, Prod.mk.injEq] at h
    obtain ⟨-, free, -, rfl⟩ := h
    exact .inr ⟨missing, free, rfl⟩

/-- A commit is a redelivery that changes nothing, a first delivery, or an event applied again after
its evidence had been invalidated. -/
theorem commitTransition_cases {result : CommitResult}
    (h : s.commitTransition req = .ok (result, s')) :
    ∃ rows, s.settlement req.env.settlementId = some rows ∧
      ((∃ row, rows.journalled req.env.eventId = some row ∧ row.envelope = req.env ∧
          result = .duplicateSameBytes ∧ s' = s) ∨
        (rows.journalled req.env.eventId = none ∧
          s.append rows false req = .ok (result, s')) ∨
        (∃ row, rows.journalled req.env.eventId = some row ∧ row.envelope = req.env ∧
          (acceptedEvidence req.env.event).isSome = true ∧
          invalidatedRow rows.evidence req.env.eventId = true ∧
          s.append { rows with evidence := reaffirm rows.evidence req.env.eventId } true req =
            .ok (result, s'))) := by
  simp only [commitTransition, bind_eq_ok, mapError_eq_ok] at h
  obtain ⟨-, -, h⟩ := h
  unfold commitInner at h
  split at h
  · cases h
  · rename_i rows hrows
    refine ⟨rows, hrows, ?_⟩
    split at h
    · rename_i hnone
      exact .inr (.inl ⟨hnone, h⟩)
    · rename_i row hrow
      split at h
      · cases h
      · rename_i hsame
        split at h
        · rename_i hrefresh
          exact .inr (.inr ⟨row, hrow, not_not.mp hsame, hrefresh.1, hrefresh.2, h⟩)
        · simp only [Except.ok.injEq, Prod.mk.injEq] at h
          exact .inl ⟨row, hrow, not_not.mp hsame, h.1.symm, h.2.symm⟩

/-- An effect that is enqueued was there already, or is a new last entry. -/
theorem enqueue_cases {outbox outbox' : List OutboxRow} {id : SettlementId} {seq : UInt64}
    {effect : OutboxEffect} (h : enqueue outbox id seq reapplying effect = .ok outbox') :
    outbox' = outbox ∨
      (∀ row ∈ outbox, row.settlementId = id → row.effectId ≠ effect.effectId) ∧
        outbox' = outbox ++ [⟨id, effect.effectId, seq, effect.kind, effect.payloadHash, false, 0,
          none, .runnerPayload⟩] := by
  unfold enqueue at h
  split at h
  · split at h
    · cases h
      exact .inl rfl
    · cases h
  · rename_i absent
    cases h
    refine .inr ⟨fun row mem own same => absent ?_, rfl⟩
    exact List.any_eq_true.mpr ⟨row, mem, by simp [own, same]⟩

/-- Entries are added at the end of the outbox, all of one settlement. -/
def Enqueued (id : SettlementId) (outbox outbox' : List OutboxRow) : Prop :=
  ∃ added, outbox' = outbox ++ added ∧ ∀ row ∈ added, row.settlementId = id

/-- Nothing was added. -/
theorem Enqueued.refl (id : SettlementId) (outbox : List OutboxRow) : Enqueued id outbox outbox :=
  ⟨[], (List.append_nil _).symm, by simp⟩

/-- **A commit adds entries of its own settlement** to the outbox. -/
theorem append_enqueued {result : CommitResult}
    (h : s.append rows reapplying req = .ok (result, s')) :
    Enqueued req.env.settlementId s.outbox s'.outbox := by
  obtain ⟨outbox, appends, -, rfl⟩ := append_eq_ok.mp h
  refine foldlM_invariant (Enqueued req.env.settlementId s.outbox) ?_ (.refl _ _) appends.enqueued
  rintro before after effect - ⟨added, rfl, own⟩ step
  obtain rfl | ⟨-, rfl⟩ := enqueue_cases step
  · exact ⟨added, rfl, own⟩
  · refine ⟨_, List.append_assoc .., fun row mem => ?_⟩
    rcases mem_snoc.mp mem with mem | rfl
    · exact own row mem
    · rfl

/-- So does every commit, whether it is a redelivery or not. -/
theorem commitTransition_enqueued {result : CommitResult}
    (h : s.commitTransition req = .ok (result, s')) :
    Enqueued req.env.settlementId s.outbox s'.outbox := by
  obtain ⟨rows, -, ⟨row, -, -, -, rfl⟩ | ⟨-, h⟩ | ⟨row, -, -, -, -, h⟩⟩ := commitTransition_cases h
  · exact .refl _ _
  · exact append_enqueued h
  · exact append_enqueued h

end Store

/-! ## The outbox -/

/-- An entry later on: nothing but its delivery status changes, and a completed one stays so. -/
structure OutboxRow.Becomes (row row' : OutboxRow) : Prop where
  settlementId : row'.settlementId = row.settlementId
  effectId : row'.effectId = row.effectId
  sourceSeq : row'.sourceSeq = row.sourceSeq
  payload : row'.payload = row.payload
  completed : row.completed = true → row'.completed = true

/-- An entry may stay as it is. -/
theorem OutboxRow.Becomes.refl (row : OutboxRow) : row.Becomes row := ⟨rfl, rfl, rfl, rfl, id⟩

/-- Changes of an entry compose. -/
theorem OutboxRow.Becomes.trans {a b c : OutboxRow} (h : a.Becomes b) (h' : b.Becomes c) :
    a.Becomes c :=
  ⟨h'.settlementId.trans h.settlementId, h'.effectId.trans h.effectId,
    h'.sourceSeq.trans h.sourceSeq, h'.payload.trans h.payload, fun done => h'.completed (h.completed done)⟩

namespace Store

variable {s s' : Store}

/-- The delivery status of entries changes, and nothing else in the outbox. -/
def Redelivers (s s' : Store) : Prop :=
  ∃ f : OutboxRow → OutboxRow, (∀ row : OutboxRow, row.Becomes (f row)) ∧
    s'.outbox = s.outbox.map f

/-- Only the delivery status of entries changes. -/
def Delivers (s s' : Store) : Prop := s'.settlement = s.settlement ∧ s.Redelivers s'

/-- An unchanged outbox is redelivered. -/
theorem Redelivers.of_eq (same : s'.outbox = s.outbox) : s.Redelivers s' :=
  ⟨id, fun row => .refl row, same.trans (List.map_id _).symm⟩

/-- A claim changes leases and attempts only. -/
theorem readyOutbox_delivers {now leaseMs : Int} {max : UInt32} {claimed : List ClaimedEffect}
    (h : s.readyOutbox now leaseMs max = .ok (claimed, s')) : s.Delivers s' := by
  simp only [readyOutbox, bind_eq_ok, pure_eq_ok, Prod.mk.injEq] at h
  obtain ⟨_, -, -, -, -, rfl⟩ := h
  refine ⟨rfl, _, fun row => ?_, rfl⟩
  split <;> exact ⟨rfl, rfl, rfl, rfl, id⟩

/-- A completion marks entries as completed. -/
theorem completeEffect_delivers {effectId payloadHash : Id}
    (h : s.completeEffect effectId payloadHash = .ok s') : s.Delivers s' := by
  unfold completeEffect at h
  split at h
  · cases h
  · simp only [bind_eq_ok, pure_eq_ok] at h
    obtain ⟨-, -, -, -, rfl⟩ := h
    split
    · exact ⟨rfl, .of_eq rfl⟩
    · refine ⟨rfl, _, fun row => ?_, rfl⟩
      split
      · exact ⟨rfl, rfl, rfl, rfl, fun _ => rfl⟩
      · exact .refl row

end Store

/-! ## Rows are never deleted -/

/-- Rows of evidence may change their status and nothing else. -/
def EvidenceKept (evidence evidence' : List EvidenceRow) : Prop :=
  ∀ row ∈ evidence, ∃ row' ∈ evidence',
    row'.evidenceId = row.evidenceId ∧ row'.reference = row.reference

/-- **The growth of the rows of a settlement.** -/
structure Rows.Grows (rows rows' : Rows) : Prop where
  journal : ∀ row ∈ rows.journal, row ∈ rows'.journal
  evidence : EvidenceKept rows.evidence rows'.evidence
  late : ∀ row ∈ rows.late, row ∈ rows'.late

/-- Rows may stay as they are. -/
theorem Rows.Grows.refl (rows : Rows) : rows.Grows rows :=
  ⟨fun _ h => h, fun row h => ⟨row, h, rfl, rfl⟩, fun _ h => h⟩

/-- Growth composes. -/
theorem Rows.Grows.trans {a b c : Rows} (h : a.Grows b) (h' : b.Grows c) : a.Grows c := by
  refine ⟨fun row hrow => h'.journal row (h.journal row hrow), ?_,
    fun row hrow => h'.late row (h.late row hrow)⟩
  intro row hrow
  obtain ⟨row', hrow', hid, href⟩ := h.evidence row hrow
  obtain ⟨row'', hrow'', hid', href'⟩ := h'.evidence row' hrow'
  exact ⟨row'', hrow'', hid'.trans hid, href'.trans href⟩

/-- **The growth of the store**: no settlement and no row of one is lost. -/
def Store.Grows (s s' : Store) : Prop :=
  ∀ id rows, s.settlement id = some rows →
    ∃ rows', s'.settlement id = some rows' ∧ rows.Grows rows'

/-- A store may stay as it is. -/
theorem Store.Grows.refl (s : Store) : s.Grows s := fun _ rows h => ⟨rows, h, .refl rows⟩

/-- Growing the rows of one settlement grows the store. -/
theorem Store.Grows.setRows {s s' : Store} {id : SettlementId} {rows rows' : Rows}
    (hrows : s.settlement id = some rows) (grows : rows.Grows rows')
    (hs' : s'.settlement = (s.setRows id rows').settlement) : s.Grows s' := by
  intro id' rows₀ h
  rw [hs']
  by_cases hid : id' = id
  · subst hid
    cases hrows.symm.trans h
    exact ⟨rows', Store.setRows_same .., grows⟩
  · exact ⟨rows₀, (Store.setRows_of_ne s rows' hid).trans h, .refl rows₀⟩

/-- Changing the status of evidence keeps every row. -/
theorem evidence_map_kept {evidence : List EvidenceRow} {f : EvidenceRow → EvidenceRow}
    (hf : ∀ row, (f row).evidenceId = row.evidenceId ∧ (f row).reference = row.reference) :
    EvidenceKept evidence (evidence.map f) :=
  fun row hrow => ⟨f row, List.mem_map_of_mem hrow, hf row⟩

/-- Recording evidence keeps every row. -/
theorem upsertEvidence_kept (evidence : List EvidenceRow) (evidenceId : Id)
    (reference : EvidenceRef) :
    EvidenceKept evidence (Store.upsertEvidence evidence evidenceId reference) := by
  unfold Store.upsertEvidence
  split
  · exact evidence_map_kept fun row => by split <;> exact ⟨rfl, rfl⟩
  · exact fun row hrow => ⟨row, List.mem_append_left _ hrow, rfl, rfl⟩

/-- Re-affirming evidence keeps every row. -/
theorem reaffirm_kept (evidence : List EvidenceRow) (evidenceId : Id) :
    EvidenceKept evidence (Store.reaffirm evidence evidenceId) :=
  evidence_map_kept fun row => by split <;> exact ⟨rfl, rfl⟩

/-- Rows grow when only their evidence does. -/
theorem Rows.grows_evidence {rows : Rows} {evidence : List EvidenceRow}
    (kept : EvidenceKept rows.evidence evidence) : rows.Grows { rows with evidence := evidence } :=
  ⟨fun _ h => h, kept, fun _ h => h⟩

/-- The rows of a commit grow. -/
theorem Rows.grows_commitRows (rows : Rows) (reapplying : Bool) (req : Store.Commit) :
    rows.Grows (Store.commitRows rows reapplying req) := by
  refine ⟨fun row h => List.mem_append_left _ h, ?_, fun _ h => h⟩
  intro row hrow
  unfold Store.commitRows
  dsimp only
  split
  · exact upsertEvidence_kept _ _ _ row hrow
  · exact ⟨row, hrow, rfl, rfl⟩

namespace Store

variable {s s' : Store}

variable {rows : Rows} {req : Commit} {result : CommitResult} {op : StoreOp} {id : SettlementId}
  {rows' : Rows} {evidenceId : Id} {moved : Nat}

/-- A commit grows the store. -/
theorem append_grows {grown : Rows} {reapplying : Bool}
    (hrows : s.settlement req.env.settlementId = some rows) (grows : rows.Grows grown)
    (h : s.append grown reapplying req = .ok (result, s')) : s.Grows s' := by
  obtain ⟨outbox, -, -, rfl⟩ := append_eq_ok.mp h
  exact Grows.setRows hrows (grows.trans (Rows.grows_commitRows grown reapplying req)) rfl

/-- So does every commit, first or repeated. -/
theorem commitTransition_grows (h : s.commitTransition req = .ok (result, s')) : s.Grows s' := by
  obtain ⟨rows, hrows, ⟨row, -, -, -, rfl⟩ | ⟨-, h⟩ | ⟨row, -, -, -, -, h⟩⟩ :=
    commitTransition_cases h
  · exact .refl _
  · exact append_grows hrows (.refl rows) h
  · exact append_grows hrows (Rows.grows_evidence (reaffirm_kept _ _)) h

/-- **What is written beside a commit**: evidence is parked, invalidated or re-affirmed, or late
evidence is recorded. -/
inductive Annotation (rows : Rows) : StoreOp → SettlementId → Rows → Prop
  | park (id : SettlementId) (evidenceId : Id) (reference : EvidenceRef) :
      Annotation rows (.parkEvidence id evidenceId reference) id
        { rows with evidence := rows.evidence ++ [⟨evidenceId, reference, .parked⟩] }
  | invalidate (id : SettlementId) (fromHeight : UInt64) :
      Annotation rows (.invalidateEvidenceFrom id fromHeight) id { rows with
        evidence := rows.evidence.map fun row =>
          if fromHeight ≤ row.reference.blockHeight && row.status ≠ .invalidated then
            { row with status := .invalidated }
          else row }
  | reaffirm (id : SettlementId) (evidenceId : Id) :
      Annotation rows (.reaffirmEvidence id evidenceId) id
        { rows with evidence := Store.reaffirm rows.evidence evidenceId }
  | late (id : SettlementId) (evidenceId : Id) (terminal : SettlementState) :
      Annotation rows (.recordLateEvidence id evidenceId terminal) id
        { rows with late := rows.late ++ [⟨evidenceId, terminal⟩] }

/-- Only evidence and late rows are written. -/
theorem Annotation.eq (h : Annotation rows op id rows') :
    ∃ evidence late, rows' = { rows with evidence := evidence, late := late } := by
  cases h <;> exact ⟨_, _, rfl⟩

/-- An annotation grows the rows. -/
theorem Annotation.grows (h : Annotation rows op id rows') : rows.Grows rows' := by
  cases h with
  | park id evidenceId reference =>
    exact Rows.grows_evidence fun row hrow => ⟨row, List.mem_append_left _ hrow, rfl, rfl⟩
  | invalidate id fromHeight =>
    exact Rows.grows_evidence (evidence_map_kept fun row => by split <;> exact ⟨rfl, rfl⟩)
  | reaffirm id evidenceId => exact Rows.grows_evidence (reaffirm_kept _ _)
  | late id evidenceId terminal =>
    exact ⟨fun _ h => h, fun row h => ⟨row, h, rfl, rfl⟩, fun row h => List.mem_append_left _ h⟩

/-- The rows of one settlement are annotated. -/
def Annotates (op : StoreOp) (s s' : Store) : Prop :=
  ∃ id rows rows', s.settlement id = some rows ∧ Annotation rows op id rows' ∧
    s' = s.setRows id rows'

/-- Parking writes one row of evidence, or nothing. -/
theorem parkEvidence_cases {reference : EvidenceRef}
    {result : ParkResult} (h : s.parkEvidence id evidenceId reference = .ok (result, s')) :
    s' = s ∨ Annotates (.parkEvidence id evidenceId reference) s s' := by
  unfold parkEvidence at h
  split at h
  · cases h
  · rename_i rows hrows
    split at h
    · split at h
      · cases h
        exact .inl rfl
      · cases h
    · simp only [bind_eq_ok, pure_eq_ok, Prod.mk.injEq] at h
      obtain ⟨-, -, -, rfl⟩ := h
      exact .inr ⟨id, rows, _, hrows, .park id evidenceId reference, rfl⟩

/-- An invalidation writes to one settlement, if it exists. -/
theorem invalidateEvidenceFrom_cases {fromHeight : UInt64}
    (h : s.invalidateEvidenceFrom id fromHeight = .ok (moved, s')) :
    s' = s ∨ Annotates (.invalidateEvidenceFrom id fromHeight) s s' := by
  simp only [invalidateEvidenceFrom, bind_eq_ok, pure_eq_ok] at h
  obtain ⟨-, -, h⟩ := h
  split at h
  · cases h
    exact .inl rfl
  · rename_i rows hrows
    cases h
    exact .inr ⟨id, rows, _, hrows, .invalidate id fromHeight, rfl⟩

/-- A re-affirmation writes to one settlement, if it exists. -/
theorem reaffirmEvidence_cases (h : s.reaffirmEvidence id evidenceId = (moved, s')) :
    s' = s ∨ Annotates (.reaffirmEvidence id evidenceId) s s' := by
  unfold reaffirmEvidence at h
  split at h
  · cases h
    exact .inl rfl
  · rename_i rows hrows
    cases h
    exact .inr ⟨id, rows, _, hrows, .reaffirm id evidenceId, rfl⟩

/-- Late evidence is written once. -/
theorem recordLateEvidence_cases
    {terminal : SettlementState} (h : s.recordLateEvidence id evidenceId terminal = .ok s') :
    s' = s ∨ Annotates (.recordLateEvidence id evidenceId terminal) s s' := by
  unfold recordLateEvidence at h
  split at h
  · cases h
  · rename_i rows hrows
    split at h
    · cases h
      exact .inl rfl
    · cases h
      exact .inr ⟨id, rows, _, hrows, .late id evidenceId terminal, rfl⟩

omit [Digests] in
/-- A mapped result succeeds if the result does. -/
theorem map_pair_eq_ok {α β γ : Type} {x : Except StorePortError α} {f : α → β × γ} {b : β} {c : γ}
    (h : x.map f = .ok (b, c)) : ∃ a, x = .ok a ∧ f a = (b, c) := by
  cases x with
  | error e => cases h
  | ok a => exact ⟨a, rfl, Except.ok.inj h⟩

/-- **What a store operation that succeeds does**: it commits a transition, it annotates at most the
rows of one settlement, or it claims or completes entries of the outbox. -/
theorem exec_eq_ok {value : op.Result} (h : s.exec op = .ok (value, s')) :
    (∃ req result, op = .commitTransition req ∧ s.commitTransition req = .ok (result, s')) ∨
      (s' = s ∨ Annotates op s s') ∨ ¬ QuietOp (.store op) ∧ s.Delivers s' := by
  have hread : ∀ {x : Except StorePortError op.Result}, x.map (·, s) = .ok (value, s') → s' = s := by
    intro x hx
    obtain ⟨a, -, ha⟩ := map_pair_eq_ok hx
    exact (congrArg Prod.snd ha).symm
  cases op with
  | load id => exact .inr (.inl (.inl (hread h)))
  | committedEvent id eventId => cases h; exact .inr (.inl (.inl rfl))
  | commitTransition req => exact .inl ⟨req, value, rfl, h⟩
  | parkEvidence id evidenceId reference => exact .inr (.inl (parkEvidence_cases h))
  | readyOutbox now leaseMs max => exact .inr (.inr ⟨not_false, readyOutbox_delivers h⟩)
  | completeEffect effectId payloadHash =>
    obtain ⟨s₁, h₁, heq⟩ := map_pair_eq_ok h
    cases heq
    exact .inr (.inr ⟨not_false, completeEffect_delivers h₁⟩)
  | recordLateEvidence id evidenceId terminal =>
    obtain ⟨s₁, h₁, heq⟩ := map_pair_eq_ok h
    cases heq
    exact .inr (.inl (recordLateEvidence_cases h₁))
  | invalidateEvidenceFrom id fromHeight => exact .inr (.inl (invalidateEvidenceFrom_cases h))
  | reaffirmEvidence id evidenceId => exact .inr (.inl (reaffirmEvidence_cases (Except.ok.inj h)))
  | terms id | journal id => exact .inr (.inl (.inl (hread h)))
  | evidence id status | cursor id chain | terminal id => cases h; exact .inr (.inl (.inl rfl))

/-- What it does to the rows of the settlements. -/
theorem exec_cases {value : op.Result} (h : s.exec op = .ok (value, s')) :
    s'.settlement = s.settlement ∨
      (∃ req result, op = .commitTransition req ∧ s.commitTransition req = .ok (result, s')) ∨
      Annotates op s s' := by
  rcases exec_eq_ok h with committed | (rfl | annotated) | ⟨-, delivers⟩
  exacts [.inr (.inl committed), .inl rfl, .inr (.inr annotated), .inl delivers.1]

/-- What it does to the outbox: only a commit adds entries, and only a claim or a completion changes
one. -/
theorem exec_outbox {value : op.Result} (h : s.exec op = .ok (value, s')) :
    (∃ req result, op = .commitTransition req ∧ s.commitTransition req = .ok (result, s')) ∨
      s'.outbox = s.outbox ∨ ¬ QuietOp (.store op) ∧ s.Redelivers s' := by
  rcases exec_eq_ok h with committed | (rfl | ⟨id, rows, rows', -, -, rfl⟩) | ⟨loud, delivers⟩
  exacts [.inl committed, .inr (.inl rfl), .inr (.inl rfl), .inr (.inr ⟨loud, delivers.2⟩)]

/-- **Every operation grows the store**, whatever it replies. -/
theorem step_grows {op : Op} {r : op.Reply} (h : Store.step op s r s') : s.Grows s' := by
  cases op with
  | store op =>
    cases r with
    | error e => rw [h.1]; exact .refl s
    | ok value =>
      obtain hsame | ⟨req, result, -, hcommit⟩ | ⟨id, rows, rows', hrows, written, rfl⟩ :=
        exec_cases h
      · exact fun _ rows hrows => ⟨rows, (congrFun hsame _).trans hrows, .refl rows⟩
      · exact commitTransition_grows hcommit
      · exact Grows.setRows hrows written.grows rfl
  | chain _ | execute _ => rw [show s' = s from h]; exact .refl s

end Store

end DomProtocol.Settlement
