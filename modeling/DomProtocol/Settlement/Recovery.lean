import DomProtocol.Settlement.History

/-! # Recovery

An engine is opened over what the store holds. Any number of engines and of other callers of
`ingestEvent` have worked on it before, and each may have crashed between two transactions.

An engine only ingests envelopes whose identifier is derived from the event, and only persists
anchored cursors. If the other callers do so too (**`Orderly`**), every parked row can be turned back
into its event and every cursor has an anchor (**`Rows.Recoverable`**), and together with the coherence
of the rows this is what `openEngine` checks: `reopening_succeeds`. -/

namespace DomProtocol.Settlement

open Act (Keeping keeping_ret run_bind run_get run_lift)

section Recovery

variable [Digests]

variable {op : Op} {id : SettlementId} {rows : Rows} {s s' : Store}

/-! ## What participants owe each other -/

/-- The identifier of an envelope is derived from its event. -/
def EventEnvelope.Canonical (env : EventEnvelope) : Prop :=
  env.eventId = deriveEventId env.settlementId env.event

/-- A cursor update has an anchor whose height fits its column. -/
def CursorUpdate.Anchored (cursor : CursorUpdate) : Prop :=
  ∃ height hash, cursor.anchorHeight = some height ∧ height.toNat < 2 ^ 63 ∧
    cursor.anchorHash = some hash

omit [Digests] in
/-- No cursor is persisted. -/
theorem anchored_none (cursor : CursorUpdate) (h : none = some cursor) : cursor.Anchored := by
  cases h

/-- Evidence of a settlement is recorded under the identifier of its event. -/
def Invertible (id : SettlementId) (evidenceId : Id) (reference : EvidenceRef) : Prop :=
  ∃ event, acceptedEvidence event = some reference ∧ evidenceId = deriveEventId id event

/-- **An orderly operation**: evidence is parked under the identifier of its event, and a cursor is
persisted with its anchor. -/
def Orderly : Op → Prop
  | .store (.parkEvidence id evidenceId reference) => Invertible id evidenceId reference
  | .store (.commitTransition req) => ∀ cursor, req.cursor = some cursor → cursor.Anchored
  | _ => True

/-- What a participant owes the others: fair and orderly operations. -/
def Owed (op : Op) (s : Store) : Prop := Fair op s ∧ Orderly op

/-- The positions of a chain source are below `2^63`. -/
def ChainOp.Bounded : (op : ChainOp) → op.Result → Prop
  | .genesisCursor, cursor => cursor.height.toNat < 2 ^ 63
  | .cursorAt _, cursor => cursor.height.toNat < 2 ^ 63
  | .cursorAtFromScan _ _, cursor => cursor.height.toNat < 2 ^ 63
  | .scan _, (_, cursor) => cursor.height.toNat < 2 ^ 63
  | .tipHeight, _ => True

/-- The reply of a chain source with such positions. -/
def BoundedReply : (op : Op) → op.Reply → Prop
  | .chain op, .ok value => op.Bounded value
  | _, _ => True

/-- What an operation may do, over a chain with heights below `2^63`. -/
def boundedStep (op : Op) (s : Store) (r : op.Reply) (s' : Store) : Prop :=
  Store.step op s r s' ∧ BoundedReply op r

/-- The regime of a client that gives the others what it owes them. -/
abbrev owing : Regime Ports (Store × Log) := fairRegime (I := Ports) boundedStep Owed

/-! ## Engines give what they owe -/

variable {μ : Type} {M : μ → Prop}

/-- A call that commits nothing keeps the regime. -/
theorem owing_called {state state' : Store × Log} {r : op.Reply}
    (done : owing.env.step op state r state') (h : NoCommit op) (orderly : Orderly op)
    (start : owing.inv state) : owing.inv state' :=
  fairRegime_called (I := Ports) done ⟨fair_of_noCommit h state.1, orderly⟩ start

/-- Calls of an engine outside `ingestEvent` commit nothing. -/
theorem Binding.EngineOp.orderly {b : Binding} (h : b.EngineOp op) : NoCommit op ∧ Orderly op := by
  cases op with
  | store op => cases op <;> first | exact ⟨trivial, trivial⟩ | exact False.elim h
  | chain op => exact ⟨trivial, trivial⟩
  | execute effect => exact ⟨trivial, trivial⟩

/-- **A call of `ingestEvent`** with a canonical envelope and an anchored cursor. -/
theorem ingestEvent_owing {env : EventEnvelope} {cursorUpdate : Option CursorUpdate}
    (canonical : env.Canonical) (anchored : ∀ cursor, cursorUpdate = some cursor → cursor.Anchored) :
    Keeping owing M (fun _ => True)
      (ingestEvent env cursorUpdate : Client μ IngestError IngestResult) := by
  have orderly (op : Op) (h : IngestOp env cursorUpdate op) : Orderly op := by
    cases op with
    | store op =>
      cases op with
      | commitTransition req =>
        obtain ⟨-, hcursor, -⟩ := h
        rw [← hcursor] at anchored
        exact anchored
      | parkEvidence id evidenceId reference =>
        obtain ⟨rfl, rfl, hreference⟩ := h
        exact ⟨env.event, hreference, canonical⟩
      | _ => trivial
    | chain op => trivial
    | execute effect => trivial
  exact ingestEvent_owes (fun _ _ _ _ h => h.1) (fun _ _ h => h.1)
    fun op _ h fair => ⟨fair, orderly op h⟩

/-- **The walk of an engine that gives what it owes**: it ingests canonical envelopes and persists
positions below `2^63`. -/
def owingWalk (b : Binding) : Walk owing.env b where
  inv := owing.inv
  stable := owing.stable
  Observed _ := True
  Tip _ := True
  Position position := position.height.toNat < 2 ^ 63
  Env := EventEnvelope.Canonical
  kept _ _ _ _ h _ done := owing_called done h.orderly.1 h.orderly.2
  ingest M canonical cursor := by
    refine ingestEvent_owing canonical fun update h => ?_
    obtain ⟨position, below, rfl⟩ := cursor update h
    exact ⟨position.height, position.anchor, rfl, below, rfl⟩
  appliedFunding _ _ _ _ _ _ _ _ := trivial
  appliedClaim _ _ _ _ _ _ _ _ := trivial
  parked _ _ _ _ _ _ _ _ _ _ := rfl
  position _ _ _ _ _ done _ := done.1.2
  quiet _ _ := rfl
  funding _ _ := ⟨rfl, rfl⟩
  claim _ _ := ⟨rfl, fun _ _ _ => rfl⟩
  refund _ _ _ _ _ := rfl

/-- The walk is the same whatever records are to come. -/
def owingPassage (b : Binding) : Passage owing.env b :=
  (owingWalk b).passage (fun _ => trivial) (fun _ => trivial) fun _ _ _ _ done => done.1.2

/-- The parked envelopes of an engine are canonical. -/
def CanonicalEngine (engine : Engine) : Prop := ∀ env ∈ engine.reorder, env.Canonical

theorem CanonicalEngine.memory {engine : Engine} (canonical : CanonicalEngine engine) :
    (owingWalk engine.binding).Memory engine :=
  ⟨rfl, trivial, canonical, fun _ _ => trivial⟩

/-- **A tick gives what it owes.** -/
theorem tick_owing (now : Int) : Keeping owing CanonicalEngine (fun _ => True) (tick now) :=
  ⟨fun engine _ canonical start => ((owingPassage engine.binding).tick now
    (fun _ _ _ _ h done => owing_called done h.orderly.1 h.orderly.2) canonical.memory start).mono
    (fun _ _ _ h => ⟨h.1.reorder, trivial, h.2⟩) fun _ _ _ h => ⟨h.1.reorder, h.2⟩⟩

theorem armRefund_owing : Keeping owing CanonicalEngine (fun _ => True) armRefund :=
  ⟨fun engine _ canonical start => ((owingWalk engine.binding).armRefund.safe engine _
    canonical.memory start).mono (fun _ _ _ h => ⟨h.1.reorder, trivial, h.2.2⟩)
    fun _ _ _ h => ⟨h.1.reorder, h.2⟩⟩

/-- **An engine that is opened gives what it owes**, and its parked envelopes are canonical. -/
theorem openEngine_owing (chainId : ChainId) (settlementId : SettlementId) :
    Keeping owing (fun _ => True) CanonicalEngine (openEngine chainId settlementId) := by
  refine openEngine_keeping (Q := fun _ => True) ?_ ?_ fun terms termsHash policy scanCursor _ _ _ => ?_
  · exact Keeping.mapError _ (Keeping.call (I := Ports) (Op.store (.terms settlementId))
      (fun r => r) (fun _ _ _ done => owing_called done trivial trivial) fun _ _ _ _ _ _ _ => trivial)
  · exact Keeping.mapError _ (Keeping.call (I := Ports) (Op.chain .genesisCursor)
      (fun r => r) (fun _ _ _ done => owing_called done trivial trivial) fun _ _ _ _ _ _ _ => trivial)
  · let b : Binding := ⟨chainId, settlementId, terms, termsHash, policy⟩
    refine ⟨(owingWalk b).Memory, ⟨rfl, trivial, fun env mem => ?_, fun _ _ => trivial⟩,
      (owingWalk b).recover, fun engine h => h.reorder⟩
    cases mem

/-! ## What the store holds -/

/-- **Rows that can be recovered from**: parked evidence can be turned back into its event, and
cursors have their anchor. -/
structure Rows.Recoverable (id : SettlementId) (rows : Rows) : Prop where
  parked : ∀ row ∈ rows.evidence, row.status = .parked → Invertible id row.evidenceId row.reference
  anchored : ∀ chain cursor, rows.cursors chain = some cursor →
    cursor.anchorHeight.isSome = true ∧ cursor.anchorHash.isSome = true

/-- Every settlement can be recovered. -/
def Store.Recoverable (s : Store) : Prop :=
  ∀ id rows, s.settlement id = some rows → rows.Recoverable id

/-- Every parked row of a list is a row of another. -/
def NoneParked (evidence evidence' : List EvidenceRow) : Prop :=
  ∀ row ∈ evidence', row.status = .parked → row ∈ evidence

/-- A change of status never parks. -/
theorem noneParked_map {evidence : List EvidenceRow} {f : EvidenceRow → EvidenceRow}
    (h : ∀ row, f row = row ∨ (f row).status ≠ .parked) : NoneParked evidence (evidence.map f) := by
  intro row' mem isParked
  obtain ⟨row, hrow, rfl⟩ := List.mem_map.mp mem
  rcases h row with same | moved
  · rwa [same]
  · exact (moved isParked).elim

theorem noneParked_reaffirm (evidence : List EvidenceRow) (evidenceId : Id) :
    NoneParked evidence (Store.reaffirm evidence evidenceId) :=
  noneParked_map fun row => by
    split
    · exact .inr (by simp)
    · exact .inl rfl

theorem noneParked_upsert (evidence : List EvidenceRow) (evidenceId : Id) (reference : EvidenceRef) :
    NoneParked evidence (Store.upsertEvidence evidence evidenceId reference) := by
  unfold Store.upsertEvidence
  split
  · refine noneParked_map fun row => ?_
    split
    · exact .inr (by simp)
    · exact .inl rfl
  · intro row mem isParked
    rcases mem_snoc.mp mem with mem | rfl
    · exact mem
    · cases isParked

/-- Rows stay recoverable if no evidence is parked and the cursors stay. -/
theorem Rows.Recoverable.congr {rows' : Rows}
    (recoverable : rows.Recoverable id) (evidence : NoneParked rows.evidence rows'.evidence)
    (cursors : rows'.cursors = rows.cursors) : rows'.Recoverable id where
  parked row mem isParked := recoverable.parked row (evidence row mem isParked) isParked
  anchored := by
    rw [cursors]
    exact recoverable.anchored

theorem Store.Recoverable.setRows (recoverable : s.Recoverable)
    (same : s'.settlement = (s.setRows id rows).settlement)
    (h : rows.Recoverable id) : s'.Recoverable := by
  intro id' rows' found
  rw [same] at found
  by_cases own : id' = id
  · subst own
    rw [Store.setRows_same] at found
    cases found
    exact h
  · rw [Store.setRows_of_ne s rows own] at found
    exact recoverable id' rows' found

/-- A commit keeps the rows recoverable. -/
theorem Rows.Recoverable.commitRows (recoverable : rows.Recoverable id)
    (reapplying : Bool) {req : Store.Commit}
    (anchored : ∀ cursor, req.cursor = some cursor → cursor.Anchored) :
    (Store.commitRows rows reapplying req).Recoverable id where
  parked := by
    have kept : NoneParked rows.evidence (Store.commitRows rows reapplying req).evidence := by
      unfold Store.commitRows
      dsimp only
      split
      · exact noneParked_upsert _ _ _
      · exact fun _ mem _ => mem
    exact fun row mem isParked => recoverable.parked row (kept row mem isParked) isParked
  anchored chain cursor h := by
    cases hupdate : req.cursor with
    | none =>
      simp only [Store.commitRows, hupdate] at h
      exact recoverable.anchored chain cursor h
    | some update =>
      simp only [Store.commitRows, hupdate] at h
      obtain ⟨height, hash, hheight, fits, hhash⟩ := anchored update hupdate
      by_cases same : chain = update.chainId
      · subst same
        rw [Function.update_self] at h
        cases h
        simp only [Store.Commit.cursorRow, hheight, hhash, Option.filter_some, fits, decide_true,
          if_true, Option.isSome_some, and_self]
      · rw [Function.update_of_ne same] at h
        exact recoverable.anchored chain cursor h

/-- **An orderly operation keeps the settlements recoverable.** -/
theorem exec_recoverable {op : StoreOp} {value : op.Result}
    (h : s.exec op = .ok (value, s')) (orderly : Orderly (.store op)) (recoverable : s.Recoverable) :
    s'.Recoverable := by
  obtain same | ⟨req, result, rfl, h⟩ | ⟨id, rows, rows', found, written, rfl⟩ := Store.exec_cases h
  · intro id rows found
    rw [same] at found
    exact recoverable id rows found
  · obtain ⟨rows, found, ⟨row, -, -, -, rfl⟩ | ⟨-, h⟩ | ⟨row, -, -, -, -, h⟩⟩ :=
      Store.commitTransition_cases h
    · exact recoverable
    · obtain ⟨outbox, -, -, rfl⟩ := Store.append_eq_ok.mp h
      exact recoverable.setRows rfl ((recoverable _ _ found).commitRows false orderly)
    · obtain ⟨outbox, -, -, rfl⟩ := Store.append_eq_ok.mp h
      refine recoverable.setRows rfl (Rows.Recoverable.commitRows ?_ true orderly)
      exact (recoverable _ _ found).congr (noneParked_reaffirm _ _) rfl
  · refine recoverable.setRows rfl ?_
    cases written with
    | park id evidenceId reference =>
      refine ⟨fun row mem isParked => ?_, (recoverable _ _ found).anchored⟩
      rcases mem_snoc.mp mem with mem | rfl
      · exact (recoverable _ _ found).parked row mem isParked
      · exact orderly
    | invalidate id fromHeight =>
      refine (recoverable _ _ found).congr (noneParked_map fun row => ?_) rfl
      split
      · exact .inr (by simp)
      · exact .inl rfl
    | reaffirm id evidenceId => exact (recoverable _ _ found).congr (noneParked_reaffirm _ _) rfl
    | late id evidenceId terminal => exact (recoverable _ _ found).congr (fun _ mem _ => mem) rfl

/-- **A step that gives what is owed keeps the settlements coherent and recoverable.** -/
theorem owed_keeps (move : FairStep (I := Ports) boundedStep Owed s s')
    (coherent : s.Coherent) (recoverable : s.Recoverable) : s'.Coherent ∧ s'.Recoverable := by
  obtain ⟨op, r, ⟨fair, orderly⟩, done, -⟩ := move
  refine ⟨coherent.moves ⟨op, r, fair, done⟩, ?_⟩
  cases op with
  | store op =>
    cases r with
    | error e => rw [done.1]; exact recoverable
    | ok value => exact exec_recoverable done orderly recoverable
  | chain _ | execute _ => rw [show s' = s from done]; exact recoverable

theorem owed_run_keeps (run : FairRun (I := Ports) boundedStep Owed s s')
    (coherent : s.Coherent) (recoverable : s.Recoverable) : s'.Coherent ∧ s'.Recoverable := by
  induction run with
  | refl => exact ⟨coherent, recoverable⟩
  | tail _ move ih => exact owed_keeps move ih.1 ih.2

/-! ## Opening an engine -/

/-- A store that is available, and a chain source that knows its first position. -/
def reopening (genesis : ChainCursor) : (op : Op) → Store → op.Reply × Store
  | .chain .genesisCursor, s => (.ok genesis, s)
  | op, s => Store.respond op s

section Reopen

variable {s : Store} {id : SettlementId} {rows : Rows}

variable {journal : List JournalRow} {ctx : SettlementContext}

omit [Digests] in
/-- The sequence number after a number of rows. -/
theorem seq_eq {seq : UInt64} {n : Nat} (h : seq.toNat = n + 1) : seq = UInt64.ofNat n + 1 := by
  rw [← UInt64.ofNat_toNat (x := seq), h, UInt64.ofNat_add]
  rfl

/-- A journal that replays has no gap. -/
theorem Replays.contiguous {sessionId : SessionId} {termsHash : Digest32}
    (replays : Replays id sessionId termsHash journal ctx) :
    Store.contiguous 1 journal = true := by
  have extend (expected : UInt64) (journal : List JournalRow) (row : JournalRow)
      (h : Store.contiguous expected journal = true)
      (next : row.seq = UInt64.ofNat journal.length + expected) :
      Store.contiguous expected (journal ++ [row]) = true := by
    induction journal generalizing expected with
    | nil =>
      have first : row.seq = expected := by
        rw [next]
        exact UInt64.zero_add expected
      simp [Store.contiguous, first]
    | cons first rest ih =>
      simp only [Store.contiguous, List.cons_append, Bool.and_eq_true, decide_eq_true_eq] at h ⊢
      refine ⟨h.1, ih _ h.2 ?_⟩
      rw [next, List.length_cons, UInt64.ofNat_add, UInt64.add_assoc, UInt64.add_comm expected]
      rfl
  induction replays with
  | nil => rfl
  | snoc earlier seq _ _ _ _ _ _ _ ih => exact extend 1 _ _ ih (seq_eq seq)

/-- **The journal replays as it was written.** -/
theorem Replays.foldlM {engine : Engine}
    (replays : Replays engine.settlementId engine.terms.sessionId engine.termsHash journal ctx) :
    ∃ timelock, journal.foldlM (replayRow engine) (SettlementContext.new, 0, false) =
      .ok (ctx, UInt64.ofNat journal.length, timelock) := by
  induction replays with
  | nil => exact ⟨false, rfl⟩
  | @snoc journal ctx row t earlier seq own session terms expected accepted resulting hashed ih =>
    obtain ⟨timelock, replayed⟩ := ih
    refine ⟨timelock || row.envelope.event = .timelockExpired, ?_⟩
    have step : replayRow engine (ctx, UInt64.ofNat journal.length, timelock) row =
        .ok (t.next, UInt64.ofNat journal.length + 1,
          timelock || row.envelope.event = .timelockExpired) := by
      simp [replayRow, seq_eq seq, own, session, terms, expected, accepted, resulting, hashed,
        mapError]
    rw [List.foldlM_append, replayed, ok_bind, List.foldlM_cons, step, ok_bind,
      List.length_append, List.length_singleton, UInt64.ofNat_add]
    rfl

theorem askStore_run {genesis : ChainCursor} {m : μ} {s' : Store} {op : StoreOp} {value : op.Result}
    (h : s.exec op = .ok (value, s')) :
    ((askStore op : Client μ SettlementEngineError op.Result) m).run (reopening genesis) s =
      ((.ok value, m), s') := by
  simp only [askStore, storeCall, Act.mapError, Prog.bind, Prog.run, reopening, Store.respond, h]

/-- Parked evidence is turned back into its event. -/
theorem invertEvidenceEvent_ok {row : EvidenceRow}
    (h : Invertible id row.evidenceId row.reference) :
    ∃ event, invertEvidenceEvent id row = .ok event := by
  obtain ⟨event, accepted, derived⟩ := h
  have candidate : event ∈ ([.fundingObserved row.reference, .fundingConfirmed row.reference,
      .claimEvidenceVerified row.reference, .claimConfirmed row.reference,
      .refundConfirmed row.reference] : List SettlementEvent) := by
    cases event <;> simp [acceptedEvidence] at accepted <;> simp [accepted]
  have matching : decide (deriveEventId id event = row.evidenceId) = true :=
    decide_eq_true derived.symm
  obtain ⟨first, hfirst⟩ := Option.isSome_iff_exists.mp
    (List.find?_isSome (p := fun event => decide (deriveEventId id event = row.evidenceId)).mpr
      ⟨event, candidate, matching⟩)
  exact ⟨first, by rw [invertEvidenceEvent, hfirst]; rfl⟩

/-- The terminal row agrees with the context. -/
theorem checkTerminal_ok (coherent : rows.Coherent id) :
    checkTerminal rows.context rows.terminal = .ok () := by
  have agrees := coherent.terminal
  cases hterminal : rows.terminal with
  | none =>
    rw [hterminal] at agrees
    cases live : rows.context.state.isTerminal with
    | false => simp [checkTerminal, live]
    | true =>
      rw [live] at agrees
      cases agrees
  | some row =>
    rw [hterminal] at agrees
    cases live : rows.context.state.isTerminal with
    | false =>
      rw [live] at agrees
      cases agrees
    | true =>
      rw [live] at agrees
      simp only [Option.map_some, if_true, Option.some.injEq, Prod.mk.injEq] at agrees
      simp [checkTerminal, live, agrees.1, agrees.2]

/-- Scanning resumes at the durable position, or at the first one. -/
theorem resumeCursor_run (genesis : ChainCursor) (recoverable : rows.Recoverable id)
    (chain : ChainId) (engine : Engine) :
    ∃ cursor, (resumeCursor (rows.cursors chain) engine).run (reopening genesis) s =
      ((.ok cursor, engine), s) := by
  cases found : rows.cursors chain with
  | none => exact ⟨genesis, rfl⟩
  | some stored =>
    obtain ⟨hheight, hhash⟩ := recoverable.anchored chain stored found
    obtain ⟨height, hheight⟩ := Option.isSome_iff_exists.mp hheight
    obtain ⟨hash, hhash⟩ := Option.isSome_iff_exists.mp hhash
    exact ⟨⟨stored.cursorBytes, height, hash⟩, by simp only [resumeCursor, hheight, hhash]; rfl⟩

/-- **Recovery succeeds** on rows that are coherent and recoverable. -/
theorem recover_run (genesis : ChainCursor) (found : s.settlement id = some rows)
    (coherent : rows.Coherent id) (recoverable : rows.Recoverable id) (engine : Engine)
    (own : engine.settlementId = id)
    (terms : engine.terms = rows.terms) (hash : engine.termsHash = rows.termsHash) :
    ∃ engine', (recover engine).run (reopening genesis) s = ((.ok (), engine'), s) := by
  subst own
  have loads : s.exec (.load engine.settlementId) = .ok (some ⟨engine.settlementId,
      rows.terms.sessionId, rows.termsHash, rows.context, rows.lastEventSeq⟩, s) := by
    have fits : ¬ (rows.revision ≠ rows.context.revision ∨ rows.state ≠ rows.context.state) := by
      rw [not_or, not_not, not_not]
      exact coherent.snapshot
    simp only [Store.exec, Store.load, found, rejectIf_of_not _ fits, ok_bind]
    rfl
  have snapshots : (snapshot engine).run (reopening genesis) s = ((.ok ⟨engine.settlementId,
      rows.terms.sessionId, rows.termsHash, rows.context, rows.lastEventSeq⟩, engine), s) := by
    refine (run_bind (run_get engine s)).trans ?_
    refine (run_bind (askStore_run loads)).trans ?_
    rfl
  have journals : s.exec (.journal engine.settlementId) = .ok (rows.journal, s) := by
    simp only [Store.exec, Store.readJournal, found, Option.elim_some, coherent.replays.contiguous]
    rfl
  obtain ⟨timelock, replayed⟩ : ∃ timelock, rows.journal.foldlM (replayRow engine)
      (SettlementContext.new, 0, false) =
        .ok (rows.context, UInt64.ofNat rows.journal.length, timelock) := by
    refine Replays.foldlM ?_
    rw [terms, hash]
    exact coherent.replays
  have counted : rows.lastEventSeq = UInt64.ofNat rows.journal.length := by
    rw [← coherent.seq, UInt64.ofNat_toNat]
  obtain ⟨cursor, resumed⟩ := resumeCursor_run (s := s) genesis recoverable engine.chainId engine
  obtain ⟨events, inverted⟩ : ∃ events, (rows.evidenceWith .parked).mapM
      (invertEvidenceEvent engine.settlementId) = .ok events := by
    refine exists_mapM_eq_ok fun row mem => invertEvidenceEvent_ok ?_
    have filtered := List.mem_filter.mp ((List.mem_insertionSort _).mp mem)
    exact recoverable.parked row filtered.1 (by simpa using filtered.2)
  have bound : ¬ (rows.termsHash ≠ engine.termsHash ∨
      rows.terms.sessionId ≠ engine.terms.sessionId) := by
    rw [terms, hash, not_or, not_not, not_not]
    exact ⟨rfl, rfl⟩
  have terminals : s.exec (.terminal engine.settlementId) = .ok (rows.terminal, s) := by
    simp only [Store.exec, Store.terminal, found, Option.bind_some]
  have cursors : s.exec (.cursor engine.settlementId engine.chainId) =
      .ok (rows.cursors engine.chainId, s) := by
    simp only [Store.exec, Store.cursor, found, Option.bind_some]
  have parks : s.exec (.evidence engine.settlementId .parked) =
      .ok (rows.evidenceWith .parked, s) := by
    simp only [Store.exec, Store.evidence, found, Option.elim_some]
  refine ⟨{ engine with
    timelockCommitted := engine.timelockCommitted || timelock
    scanCursor := cursor
    reorder := engine.reorder.adopt (events.map engine.envelopeFor) }, ?_⟩
  refine (run_bind (run_get engine s)).trans ?_
  refine (run_bind snapshots).trans ?_
  refine (run_bind (run_lift (rejectIf_of_not _ bound) engine s)).trans ?_
  refine (run_bind (askStore_run journals)).trans ?_
  refine (run_bind (run_lift replayed engine s)).trans ?_
  refine (run_bind (run_lift (rejectIf_of_not _ (not_not.mpr rfl)) engine s)).trans ?_
  refine (run_bind (run_lift (rejectIf_of_not _ (not_not.mpr counted)) engine s)).trans ?_
  refine (run_bind (askStore_run terminals)).trans ?_
  refine (run_bind (run_lift (checkTerminal_ok coherent) engine s)).trans ?_
  refine (run_bind (askStore_run cursors)).trans ?_
  refine (run_bind resumed).trans ?_
  refine (run_bind (askStore_run parks)).trans ?_
  refine (run_bind (run_lift inverted engine s)).trans ?_
  rfl

/-- An engine can be opened over rows that are coherent and recoverable. -/
theorem openEngine_run (genesis : ChainCursor) (found : s.settlement id = some rows)
    (coherent : rows.Coherent id) (recoverable : rows.Recoverable id) {policy : EnginePolicy}
    (timelock : policyOf rows.terms = .ok policy) :
    ∃ engine, (openEngine rows.terms.domLeg.chainId id ()).run (reopening genesis) s =
      ((.ok engine, ()), s) := by
  have binds : s.exec (.terms id) = .ok (some (rows.terms, rows.termsHash), s) := by
    obtain ⟨hashed, own⟩ := coherent.terms
    have fits : ¬ (rows.termsHash ≠ rows.termsHash ∨ rows.terms.settlementId ≠ id) := by
      rw [not_or, not_not, not_not]
      exact ⟨rfl, own⟩
    simp only [Store.exec, Store.terms, found, hashed, mapError, ok_bind, rejectIf_of_not _ fits]
    rfl
  let fresh : Engine :=
    { chainId := rows.terms.domLeg.chainId, settlementId := id, terms := rows.terms
      termsHash := rows.termsHash, policy := policy, scanCursor := genesis, pendingRefunds := []
      reorder := [], timelockCommitted := false, leaseMs := 30000, maxEffectsPerTick := 32
      report := {} }
  obtain ⟨engine, recovered⟩ := recover_run genesis found coherent recoverable fresh rfl rfl rfl
  refine ⟨engine, ?_⟩
  refine (run_bind (askStore_run binds)).trans ?_
  refine (run_bind (run_lift (rejectIf_of_not _ (not_not.mpr rfl)) () s)).trans ?_
  refine (run_bind (run_lift timelock () s)).trans ?_
  have first : ((askChain .genesisCursor : Client Unit SettlementEngineError ChainCursor) ()).run
      (reopening genesis) s = ((.ok genesis, ()), s) := rfl
  refine (run_bind first).trans ?_
  rw [Prog.run_bind, recovered]
  rfl

end Reopen

/-! ## Engines and callers at the same time -/

/-- What an engine is asked to do. -/
inductive Turn where
  | tick (now : Int)
  | armRefund

/-- One turn of an engine. -/
def Turn.act : Turn → EngineAct Unit
  | tick now => do
    let _ ← Settlement.tick now
    pure ()
  | armRefund => do
    let _ ← Settlement.armRefund
    pure ()

/-- Turns of an engine one after the other, whether they fail or not. -/
def engineTurns : List Turn → Engine → Prog Ports Unit
  | [], _ => .done ()
  | turn :: rest, engine => (turn.act engine).bind fun outcome => engineTurns rest outcome.2

/-- An engine is opened, and takes its turns. -/
def engineProgram (chainId : ChainId) (settlementId : SettlementId) (turns : List Turn) :
    Prog Ports Unit :=
  (openEngine chainId settlementId ()).bind fun
    | (.ok engine, _) => engineTurns turns engine
    | (.error _, _) => .done ()

/-- **Who works on a store**: engines, and callers of `ingestEvent` whose envelopes are canonical and
whose cursors are anchored. -/
inductive Participant : Prog Ports Unit → Prop
  | engine (chainId : ChainId) (settlementId : SettlementId) (turns : List Turn) :
      Participant (engineProgram chainId settlementId turns)
  | caller (env : EventEnvelope) (cursorUpdate : Option CursorUpdate) (canonical : env.Canonical)
      (anchored : ∀ cursor, cursorUpdate = some cursor → cursor.Anchored) :
      Participant (((ingestEvent env cursorUpdate : Client Unit IngestError IngestResult) ()).bind
        fun _ => .done ())

theorem turn_owing (turn : Turn) : Keeping owing CanonicalEngine (fun _ => True) turn.act := by
  cases turn with
  | tick now => exact (tick_owing now).bind fun _ _ => keeping_ret trivial
  | armRefund => exact armRefund_owing.bind fun _ _ => keeping_ret trivial

theorem engineTurns_safe (turns : List Turn) {engine : Engine} (canonical : CanonicalEngine engine)
    {state : Store × Log} (start : FairLog (I := Ports) Owed state) :
    (engineTurns turns engine).Safe (Environment.among (I := Ports) boundedStep Owed).logged
      (FairLog (I := Ports) Owed) (fun _ _ => True) state := by
  induction turns generalizing engine state with
  | nil => exact fun _ _ => trivial
  | cons turn rest ih =>
    refine Prog.Safe.bind (Prog.Safe.mono ((turn_owing turn).safe engine state canonical start) ?_)
    rintro ⟨_ | _, engine'⟩ t after
    · exact ih after.1 after.2
    · exact ih after.1 after.2.2

theorem Participant.fair {p : Prog Ports Unit} (participant : Participant p) :
    p.Fair (I := Ports) boundedStep Owed := by
  refine ⟨fun s => ?_⟩
  have start : FairLog (I := Ports) Owed (s, []) := fun c mem => by cases mem
  cases participant with
  | engine chainId settlementId turns =>
    refine Prog.Safe.bind (Prog.Safe.mono ((openEngine_owing chainId settlementId).safe ()
      (s, []) trivial start) ?_)
    rintro ⟨_ | engine, _⟩ t after
    · exact fun _ _ => trivial
    · exact engineTurns_safe turns after.2.1 after.2.2
  | caller env cursorUpdate canonical anchored =>
    refine Prog.Safe.bind (Prog.Safe.mono ((ingestEvent_owing (M := fun _ => True) canonical
      anchored).safe () (s, []) trivial start) ?_)
    exact fun _ _ _ _ _ => trivial

/-- A run of engines and callers, at any time more of them. -/
abbrev ParticipantRun : Pool Ports Store Unit → Pool Ports Store Unit → Prop :=
  Relation.ReflTransGen (PoolStep (I := Ports) boundedStep Participant)

/-- New settlements can be recovered. -/
theorem Created.recoverable {s : Store} (created : Created s) : s.Recoverable := by
  intro id rows found
  obtain ⟨terms, hash, rfl, -, rfl⟩ := created.rows.2 id rows found
  refine ⟨fun row mem => ?_, fun chain cursor h => ?_⟩
  · cases mem
  · cases h

/-- **Reopening succeeds**: after every interleaving of engines and callers on new settlements, cut
short anywhere, the rows of a settlement are coherent (the journal replays without a gap to the
snapshot, and there is a terminal row exactly for a terminal context), and an engine can be opened
over it. -/
theorem reopening_succeeds {s₀ s : Store} {ps : List (Prog Ports Unit)} (created : Created s₀)
    (run : ParticipantRun ([], s₀) (ps, s)) {id : SettlementId} {rows : Rows}
    (found : s.settlement id = some rows) {policy : EnginePolicy}
    (timelock : policyOf rows.terms = .ok policy) (genesis : ChainCursor) :
    rows.Coherent id ∧
      ∃ engine, (openEngine rows.terms.domLeg.chainId id ()).run (reopening genesis) s =
        ((.ok engine, ()), s) := by
  obtain ⟨moves, -⟩ := pool_fair (fun p => Participant.fair) run fun p mem => by cases mem
  obtain ⟨coherent, recoverable⟩ :=
    owed_run_keeps moves created.coherent created.recoverable
  exact ⟨coherent id rows found,
    openEngine_run genesis found (coherent id rows found) (recoverable id rows found) timelock⟩

end Recovery

section Example

attribute [local instance] freeDigests freeDigests_lawful

/-- Over an empty chain, the replies are among those the participants may get. -/
theorem reopening_bounded (op : Op) (s : Store) :
    boundedStep op s (reopening ⟨[], 0, 0⟩ op s).1 (reopening ⟨[], 0, 0⟩ op s).2 := by
  cases op with
  | store op => exact ⟨Store.respond_step (.store op) s, trivial⟩
  | chain op =>
    cases op with
    | genesisCursor => exact ⟨rfl, Nat.two_pow_pos 63⟩
    | _ => exact ⟨rfl, trivial⟩
  | execute effect => exact ⟨rfl, trivial⟩

/-- A caller reads the settlement and crashes, and an engine arms the refund and ticks. -/
def armedStore : Store :=
  (engineProgram 0 1 [.armRefund, .tick 0]).run (reopening ⟨[], 0, 0⟩)
    (reopening ⟨[], 0, 0⟩ (.store (.load 1)) (exampleStore [1])).2 |>.2

/-- An engine is opened after another one armed the refund and a caller crashed. -/
theorem reopening_succeeds_armed : ∃ rows engine, armedStore.settlement 1 = some rows ∧
    rows.journal.length = 1 ∧ (openEngine rows.terms.domLeg.chainId 1 ()).run (reopening ⟨[], 0, 0⟩)
      armedStore = ((.ok engine, ()), armedStore) := by
  have facts : (armedStore.settlement 1).map (fun rows => (rows.journal.length, rows.terms)) =
      some (1, exampleTerms 1) := by decide +kernel
  cases found : armedStore.settlement 1 with
  | none =>
    rw [found] at facts
    cases facts
  | some rows =>
    rw [found] at facts
    obtain ⟨journalled, terms⟩ := Prod.mk.inj (Option.some.inj facts)
    have run : ParticipantRun ([], exampleStore [1]) (_, armedStore) :=
      .head (.enter _ (.caller (exampleEnvelope 1 .refundArmed) none rfl anchored_none))
        (.head (.act [] [] (reopening_bounded (.store (.load 1)) _))
          (.head (.enter _ (.engine 0 1 [.armRefund, .tick 0]))
            (pool_run Participant reopening_bounded _ _ _)))
    have timelock : policyOf rows.terms = .ok ⟨2, 2, 100⟩ := by
      rw [terms]
      rfl
    obtain ⟨-, engine, opened⟩ := reopening_succeeds (exampleStore_created [1]) run found timelock
      ⟨[], 0, 0⟩
    exact ⟨rows, engine, rfl, journalled, opened⟩

/-- A caller arms the refund and persists a cursor without an anchor. -/
def unanchoredStore : Store :=
  (((ingestEvent (exampleEnvelope 1 .refundArmed) (some ⟨0, [], none, none⟩) :
    Client Unit IngestError IngestResult) ()).bind fun _ => .done ()).run Store.respond
    (exampleStore [1]) |>.2

/-- **A cursor without an anchor is not recovered from**: the caller is fair, and no engine can be
opened afterwards. -/
theorem unanchored_cursor_not_reopened :
    (∃ ps, CallerRun ([], exampleStore [1]) (ps, unanchoredStore)) ∧
      (((openEngine 0 1 ()).run (reopening ⟨[], 0, 0⟩) unanchoredStore).1.1.map fun _ => ()) =
        .error (.recoveryDivergence "persisted cursor has no anchor") := by
  refine ⟨⟨_, .head (.enter _ (.ingest _ _)) (pool_run Caller Store.respond_step _ _ _)⟩, ?_⟩
  decide +kernel

end Example

end DomProtocol.Settlement
