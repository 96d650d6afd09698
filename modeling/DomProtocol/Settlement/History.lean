import DomProtocol.Settlement.Isolation
import DomProtocol.Lib.Pool

/-! # The history of a settlement

Any number of callers ingest events at the same time. Each loads the snapshot, computes a transition
and commits it, and what the others did in between is only noticed by the revision check of the
commit. **`Fair`** is what a commit owes the others: if the revision is still the one it expects,
its transition is the one of the durable context (`ingestEvent_owes`).

From that follow the invariants of the tables. **`Rows.Coherent`**: the journal replays to the
context of the snapshot. **`Store.Outgoing`**: every effect is enqueued once, and funding is only
authorized after the refund was armed. -/

namespace DomProtocol.Settlement

section History

variable [Digests]

/-! ## Fair commits -/

/-- **A fair operation**: a commit, if it expects the durable revision, carries the transition of the
durable context, and the effects of that transition. -/
def Fair : Op → Store → Prop
  | .store (.commitTransition req), s =>
    req.effects = effectsToOutbox req.env req.transition.effects ∧
    req.transition.next.revision.toNat = req.expectedRevision.toNat + 1 ∧
    ∀ rows, s.settlement req.env.settlementId = some rows →
      rows.revision = req.expectedRevision →
        rows.terms.sessionId = req.env.sessionId ∧ rows.termsHash = req.env.termsHash ∧
          transition rows.context req.env.event = .ok req.transition
  | _, _ => True

/-- One fair operation. -/
abbrev Moves (s s' : Store) : Prop := FairStep (I := Ports) Store.step Fair s s'

/-- Any number of fair operations. -/
abbrev Evolves : Store → Store → Prop := FairRun (I := Ports) Store.step Fair

/-- Operations that are no commit. -/
def NoCommit : Op → Prop
  | .store (.commitTransition _) => False
  | _ => True

theorem fair_of_noCommit {op : Op} (h : NoCommit op) (s : Store) : Fair op s := by
  cases op with
  | store op => cases op <;> first | exact trivial | exact h.elim
  | chain op => trivial
  | execute effect => trivial

/-- What a fair step does to the rows of a settlement: it writes evidence or late rows, or it commits
a transition of the durable context. -/
inductive Rows.Move (id : SettlementId) (rows : Rows) : Rows → Prop
  | annotate (evidence : List EvidenceRow) (late : List LateRow) :
      Rows.Move id rows { rows with evidence := evidence, late := late }
  | commit (evidence : List EvidenceRow) (reapplying : Bool) (req : Store.Commit)
      (own : req.env.settlementId = id) (revision : rows.revision = req.expectedRevision)
      (seq : rows.lastEventSeq.toNat + 1 < 2 ^ 63)
      (advance : req.transition.next.revision.toNat = rows.revision.toNat + 1)
      (session : rows.terms.sessionId = req.env.sessionId)
      (terms : rows.termsHash = req.env.termsHash)
      (accepted : transition rows.context req.env.event = .ok req.transition)
      (terminal : req.transition.next.state.isTerminal = true → rows.terminal = none) :
      Rows.Move id rows (Store.commitRows { rows with evidence := evidence } reapplying req)

/-- Nothing happens to the rows. -/
theorem Rows.Move.refl (id : SettlementId) (rows : Rows) : rows.Move id rows :=
  .annotate rows.evidence rows.late

variable {s : Store} {reapplying : Bool} {outbox : List OutboxRow}

/-- A commit that is written moves the rows of its settlement. -/
theorem Store.Appends.move {rows : Rows} {evidence : List EvidenceRow} {req : Store.Commit}
    (found : s.settlement req.env.settlementId = some rows)
    (h : s.Appends { rows with evidence := evidence } reapplying req outbox)
    (fair : Fair (.store (.commitTransition req)) s) :
    rows.Move req.env.settlementId (commitRows { rows with evidence := evidence } reapplying req) := by
  obtain ⟨-, advance, faithful⟩ := fair
  obtain ⟨session, terms, accepted⟩ := faithful rows found h.revision
  have expected : rows.revision = req.expectedRevision := h.revision
  exact .commit evidence reapplying req rfl expected h.seq (by rw [advance, expected]) session terms
    accepted h.terminal

variable {s' : Store}

/-- **What a fair step does to the settlements.** -/
theorem fairStep_rows (move : Moves s s') (id : SettlementId) :
    (s.settlement id = none ∧ s'.settlement id = none) ∨
      ∃ rows rows', s.settlement id = some rows ∧ s'.settlement id = some rows' ∧
        rows.Move id rows' := by
  obtain ⟨op, r, fair, done⟩ := move
  have same (h : s'.settlement = s.settlement) : (s.settlement id = none ∧ s'.settlement id = none) ∨
      ∃ rows rows', s.settlement id = some rows ∧ s'.settlement id = some rows' ∧
        rows.Move id rows' := by
    rw [h]
    cases found : s.settlement id with
    | none => exact .inl ⟨rfl, rfl⟩
    | some rows => exact .inr ⟨rows, rows, rfl, rfl, .refl id rows⟩
  -- the rows of one settlement are replaced
  have replaced {other : SettlementId} {rows rows' : Rows} (found : s.settlement other = some rows)
      (h : s'.settlement = (s.setRows other rows').settlement) (moves : rows.Move other rows') :
      (s.settlement id = none ∧ s'.settlement id = none) ∨
        ∃ rows rows', s.settlement id = some rows ∧ s'.settlement id = some rows' ∧
          rows.Move id rows' := by
    rw [h]
    by_cases own : id = other
    · subst own
      exact .inr ⟨rows, rows', found, Store.setRows_same .., moves⟩
    · rw [Store.setRows_of_ne s rows' own]
      cases found : s.settlement id with
      | none => exact .inl ⟨rfl, rfl⟩
      | some rows => exact .inr ⟨rows, rows, rfl, rfl, .refl id rows⟩
  cases op with
  | store op =>
    cases r with
    | error e => exact same (by rw [done.1])
    | ok value =>
      obtain h | ⟨req, result, rfl, h⟩ | ⟨other, rows, rows', found, written, rfl⟩ :=
        Store.exec_cases done
      · exact same h
      · obtain ⟨rows, found, ⟨row, -, -, -, rfl⟩ | ⟨-, h⟩ | ⟨row, -, -, -, -, h⟩⟩ :=
          Store.commitTransition_cases h
        · exact same rfl
        · obtain ⟨outbox, appends, -, rfl⟩ := Store.append_eq_ok.mp h
          have same : s.Appends { rows with evidence := rows.evidence } false req outbox := appends
          exact replaced found rfl (same.move found fair)
        · obtain ⟨outbox, appends, -, rfl⟩ := Store.append_eq_ok.mp h
          exact replaced found rfl (appends.move found fair)
      · obtain ⟨evidence, late, rfl⟩ := written.eq
        exact replaced found rfl (.annotate evidence late)
  | chain _ | execute _ => exact same (by rw [show s' = s from done])

/-! ## Callers are fair -/

/-- A snapshot that was loaded: at its revision, the durable context is still the one it holds. -/
def Loaded (id : SettlementId) (snapshot : SettlementSnapshot) (s : Store) : Prop :=
  ∃ rows, s.settlement id = some rows ∧ rows.terms.sessionId = snapshot.sessionId ∧
    rows.termsHash = snapshot.termsHash ∧
    snapshot.context.revision.toNat ≤ rows.revision.toNat ∧
    (rows.revision = snapshot.context.revision → rows.context = snapshot.context)

variable {id : SettlementId} {snapshot : SettlementSnapshot}

theorem loaded_of_load (h : s.load id = .ok (some snapshot)) : Loaded id snapshot s := by
  unfold Store.load at h
  split at h
  · cases h
  · rename_i rows found
    simp only [bind_eq_ok, rejectIf_eq_ok, pure_eq_ok, not_or, not_not, Option.some.injEq] at h
    obtain ⟨-, ⟨revision, -⟩, rfl⟩ := h
    exact ⟨rows, found, rfl, rfl, by rw [revision], fun _ => rfl⟩

/-- The revision only grows, so a snapshot stays loaded. -/
theorem Loaded.moves
    (loaded : Loaded id snapshot s) (move : Moves s s') : Loaded id snapshot s' := by
  obtain ⟨rows, found, session, terms, le, same⟩ := loaded
  obtain ⟨missing, -⟩ | ⟨rows₁, rows', found₁, found', moves⟩ := fairStep_rows move id
  · rw [missing] at found
    cases found
  · cases found.symm.trans found₁
    cases moves with
    | annotate evidence late => exact ⟨_, found', session, terms, le, same⟩
    | commit evidence reapplying req _ _ _ advance =>
      have revision : (Store.commitRows { rows with evidence := evidence } reapplying req).revision =
        req.transition.next.revision := rfl
      refine ⟨_, found', session, terms, ?_, fun h => ?_⟩
      · rw [revision, advance]
        omega
      · rw [revision] at h
        rw [h] at advance
        omega

theorem Loaded.evolves
    (loaded : Loaded id snapshot s) (run : Evolves s s') : Loaded id snapshot s' := by
  induction run with
  | refl => exact loaded
  | tail _ move ih => exact ih.moves move

variable {env : EventEnvelope} {cursorUpdate : Option CursorUpdate}

/-- **A commit of a loaded snapshot is fair.** -/
theorem DeliverOp.fair {op : Op} (h : DeliverOp snapshot env cursorUpdate op)
    (loaded : Loaded env.settlementId snapshot s) (session : snapshot.sessionId = env.sessionId)
    (terms : snapshot.termsHash = env.termsHash) : Fair op s := by
  cases op with
  | store op =>
    cases op with
    | commitTransition req =>
      obtain ⟨⟨rfl, -, effects⟩, expected, accepted⟩ := h
      refine ⟨effects, ?_, fun rows found revision => ?_⟩
      · rw [expected]
        exact transition_revision_toNat accepted
      · obtain ⟨rows', found', session', terms', -, same⟩ := loaded
        cases found'.symm.trans found
        rw [same (revision.trans expected)]
        exact ⟨session'.trans session, terms'.trans terms, accepted⟩
    | _ => trivial
  | chain op => trivial
  | execute effect => trivial

/-- **Callers are fair**: whatever they ingest, and whatever the others do in between, if they owe
each other fair operations and maybe more. -/
theorem ingestEvent_owes {step : (op : Op) → Store → op.Reply → Store → Prop}
    {owed : Op → Store → Prop} {μ : Type} {M : μ → Prop}
    (narrower : ∀ op s r s', step op s r s' → Store.step op s r s')
    (fair : ∀ op s, owed op s → Fair op s)
    (owes : ∀ op s, IngestOp env cursorUpdate op → Fair op s → owed op s) :
    Act.Keeping (fairRegime (I := Ports) step owed) M (fun _ => True)
      (ingestEvent env cursorUpdate : Client μ IngestError IngestResult) := by
  have evolves {snapshot : SettlementSnapshot} {s s' : Store} (h : FairRun (I := Ports) step owed s s')
      (loaded : Loaded env.settlementId snapshot s) : Loaded env.settlementId snapshot s' := by
    refine loaded.evolves (Relation.ReflTransGen.mono ?_ _ _ h)
    rintro a b ⟨op, r, now, done⟩
    exact ⟨op, r, fair op a now, narrower op a r b done⟩
  refine ⟨fun m state hm start => Act.Safe.bind (storeCall_safe fun s₁ r s₂ moved done => ?_)⟩
  have now : owed (.store (.load env.settlementId)) s₁.1 := owes _ _ rfl trivial
  have after := fairRegime_called (I := Ports) done now (start.stable moved)
  refine ⟨after, fun t ht => ⟨?_, fun _ _ t' ht' => ⟨hm, (after.stable ht).stable ht'⟩⟩⟩
  rintro loaded rfl
  have calls := after.stable ht
  cases loaded with
  | none => exact Act.Safe.fail fun _ ht' => ⟨hm, calls.stable ht'⟩
  | some snapshot =>
    obtain ⟨value, load, same⟩ := Store.map_pair_eq_ok (narrower _ _ _ _ done.1)
    obtain ⟨rfl, unmoved⟩ := Prod.mk.inj same
    dsimp only
    split
    · exact Act.Safe.fail fun _ ht' => ⟨hm, calls.stable ht'⟩
    · rename_i bound
      rw [not_or, not_not, not_not] at bound
      -- from here on every call keeps the snapshot loaded
      let G : Regime Ports (Store × Log) := ⟨(fairRegime (I := Ports) step owed).env,
        fun t => FairLog (I := Ports) owed t ∧ Loaded env.settlementId snapshot t.1,
        fun _ _ moved h => ⟨h.1.stable moved, evolves moved.1 h.2⟩⟩
      have keeping : Act.Keeping G M (fun _ => True)
          (ingestBound snapshot env cursorUpdate : Client μ IngestError IngestResult) :=
        ingestBound_silent.keeping fun op s r s' h done inv => by
          have now := h.fair inv.2 bound.1 bound.2
          exact ⟨inv.1.called done (owes op s.1 h.1 now),
            inv.2.moves ⟨op, r, now, narrower _ _ _ _ done.1⟩⟩
      exact ((keeping.safe m t hm ⟨calls, evolves ht.1 (unmoved ▸ loaded_of_load load)⟩).within
        fun _ h => h.1).mono (fun _ _ _ h => ⟨h.1, trivial, h.2.2.1⟩) fun _ _ _ h => ⟨h.1, h.2.1⟩

/-! ## The journal and the snapshot -/

/-- **The journal replays to a context**: every row follows the one before it, and records the
revision and the hash of the context its event leads to. -/
inductive Replays (id : SettlementId) (sessionId : SessionId) (termsHash : Digest32) :
    List JournalRow → SettlementContext → Prop
  | nil : Replays id sessionId termsHash [] .new
  | snoc {journal : List JournalRow} {ctx : SettlementContext} {row : JournalRow} {t : Transition}
      (earlier : Replays id sessionId termsHash journal ctx)
      (seq : row.seq.toNat = journal.length + 1) (own : row.envelope.settlementId = id)
      (session : row.envelope.sessionId = sessionId) (terms : row.envelope.termsHash = termsHash)
      (expected : row.expectedRevision = ctx.revision)
      (accepted : transition ctx row.envelope.event = .ok t)
      (resulting : row.resultingRevision = t.next.revision)
      (hashed : row.contextHash = contextHash t.next) :
      Replays id sessionId termsHash (journal ++ [row]) t.next

/-- **The rows of a settlement agree with each other.** -/
structure Rows.Coherent (id : SettlementId) (rows : Rows) : Prop where
  terms : rows.terms.termsHash = .ok rows.termsHash ∧ rows.terms.settlementId = id
  snapshot : rows.revision = rows.context.revision ∧ rows.state = rows.context.state
  replays : Replays id rows.terms.sessionId rows.termsHash rows.journal rows.context
  seq : rows.lastEventSeq.toNat = rows.journal.length
  terminal : rows.terminal.map (fun row => (row.outcome, row.finalizedRevision)) =
    if rows.context.state.isTerminal then some (rows.context.state, rows.context.revision) else none

/-- The rows of every settlement agree with each other. -/
def Store.Coherent (s : Store) : Prop := ∀ id rows, s.settlement id = some rows → rows.Coherent id

/-- **A fair step keeps the rows coherent.** -/
theorem Rows.Coherent.move {rows rows' : Rows} (coherent : rows.Coherent id)
    (moves : rows.Move id rows') : rows'.Coherent id := by
  cases moves with
  | annotate evidence late =>
    exact ⟨coherent.terms, coherent.snapshot, coherent.replays, coherent.seq, coherent.terminal⟩
  | commit evidence reapplying req own revision seq _ session terms accepted terminal =>
    have counted : (rows.lastEventSeq + 1).toNat = rows.journal.length + 1 := by
      rw [UInt64.toNat_add, ← coherent.seq]
      exact Nat.mod_eq_of_lt (by simp; omega)
    refine ⟨coherent.terms, ⟨rfl, rfl⟩, ?_, ?_, ?_⟩
    · exact .snoc coherent.replays counted own session.symm terms.symm
        (revision.symm.trans coherent.snapshot.1) accepted rfl rfl
    · simp only [Store.commitRows, List.length_append, List.length_singleton]
      exact counted
    · -- the context was not terminal, so there was no terminal row
      have live := (transition_eq_ok.mp accepted).1
      have before := coherent.terminal
      rw [live, if_neg Bool.false_ne_true, Option.map_eq_none_iff] at before
      simp only [Store.commitRows, before]
      split <;> rfl

theorem Store.Coherent.moves (coherent : s.Coherent) (move : Moves s s') : s'.Coherent := by
  intro id rows' found'
  obtain ⟨-, missing⟩ | ⟨rows, rows₁, found, found₁, moves⟩ := fairStep_rows move id
  · rw [missing] at found'
    cases found'
  · cases found'.symm.trans found₁
    exact (coherent id rows found).move moves

theorem Store.Coherent.evolves (coherent : s.Coherent) (run : Evolves s s') : s'.Coherent := by
  induction run with
  | refl => exact coherent
  | tail _ move ih => exact ih.moves move

/-- A store in which settlements were created and nothing else. -/
inductive Created : Store → Prop
  | empty (order : OutboxOrder) : Created (.empty order)
  | create {s s' : Store} {terms : SettlementTerms} {snapshot : SettlementSnapshot}
      (earlier : Created s) (done : s.create terms = .ok (snapshot, s')) : Created s'

/-- **The rows of new settlements**, and an outbox without entries. -/
theorem Created.rows (created : Created s) : s.outbox = [] ∧
    ∀ id rows, s.settlement id = some rows → ∃ (terms : SettlementTerms) (hash : Digest32),
      terms.settlementId = id ∧ terms.termsHash = .ok hash ∧ rows = Store.newRows terms hash := by
  induction created with
  | empty order =>
    refine ⟨rfl, fun id rows found => ?_⟩
    cases found
  | @create _ _ terms _ _ done ih =>
    obtain ⟨hash, hashed, rfl | ⟨-, -, rfl⟩⟩ := Store.create_cases done
    · exact ih
    · refine ⟨ih.1, fun id rows found => ?_⟩
      by_cases own : id = terms.settlementId
      · subst own
        cases (Store.setRows_same ..).symm.trans found
        exact ⟨terms, hash, rfl, hashed, rfl⟩
      · exact ih.2 id rows ((Store.setRows_of_ne _ _ own).symm.trans found)

/-- New settlements are coherent. -/
theorem Created.coherent (created : Created s) : s.Coherent := by
  intro id rows found
  obtain ⟨terms, hash, rfl, hashed, rfl⟩ := created.rows.2 id rows found
  exact ⟨⟨hashed, rfl⟩, ⟨rfl, rfl⟩, .nil, rfl, rfl⟩

/-! ## The outbox -/

/-- **The outbox later on**: the same entries in the same places, and new ones after them. -/
def OutboxGrows (outbox outbox' : List OutboxRow) : Prop :=
  ∀ (i : Nat) row, outbox[i]? = some row → ∃ row', outbox'[i]? = some row' ∧ row.Becomes row'

theorem OutboxGrows.refl (outbox : List OutboxRow) : OutboxGrows outbox outbox :=
  fun _ row h => ⟨row, h, .refl row⟩

theorem OutboxGrows.trans {a b c : List OutboxRow} (h : OutboxGrows a b) (h' : OutboxGrows b c) :
    OutboxGrows a c := by
  intro i row hrow
  obtain ⟨row', hrow', becomes⟩ := h i row hrow
  obtain ⟨row'', hrow'', becomes'⟩ := h' i row' hrow'
  exact ⟨row'', hrow'', becomes.trans becomes'⟩

variable {f : OutboxRow → OutboxRow}

theorem OutboxGrows.map
    (h : ∀ row : OutboxRow, row.Becomes (f row)) : OutboxGrows outbox (outbox.map f) := by
  intro i row hrow
  exact ⟨f row, by rw [List.getElem?_map, hrow]; rfl, h row⟩

theorem OutboxGrows.append (outbox added : List OutboxRow) :
    OutboxGrows outbox (outbox ++ added) := by
  intro i row hrow
  have inside := (List.getElem?_eq_some_iff.mp hrow).1
  exact ⟨row, by rw [List.getElem?_append_left inside, hrow], .refl row⟩

variable {outbox' : List OutboxRow}

/-- Identifiers are never removed or changed. -/
theorem OutboxGrows.effectIds (h : OutboxGrows outbox outbox') :
    outbox.map (·.effectId) <+: outbox'.map (·.effectId) := by
  rw [List.prefix_iff_getElem?]
  intro i inside
  rw [List.length_map] at inside
  obtain ⟨row', hrow', becomes⟩ := h i outbox[i] (List.getElem?_eq_getElem inside)
  rw [List.getElem?_map, hrow', List.getElem_map, Option.map_some, becomes.effectId]

variable {row : OutboxRow}

/-- An entry is still there later on. -/
theorem OutboxGrows.mem (h : OutboxGrows outbox outbox') (mem : row ∈ outbox) :
    ∃ row' ∈ outbox', row.Becomes row' := by
  obtain ⟨i, hrow⟩ := List.mem_iff_getElem?.mp mem
  obtain ⟨row', hrow', becomes⟩ := h i row hrow
  exact ⟨row', List.mem_of_getElem? hrow', becomes⟩

/-- Funding is authorized for a settlement whose refund was armed by the event of the entry. -/
def Store.Armed (s : Store) (row : OutboxRow) : Prop :=
  row.payload = .authorizeFunding → ∃ rows, s.settlement row.settlementId = some rows ∧
    ∃ entry ∈ rows.journal, entry.seq = row.sourceSeq ∧ entry.envelope.event = .refundArmed

/-- **The outbox of the settlements**: entries are identified by what they are, once, and funding is
authorized only after the refund was armed. -/
structure Store.Outgoing (s : Store) : Prop where
  derived : s.Derived
  unique : (s.outbox.map (·.effectId)).Nodup
  armed : ∀ row ∈ s.outbox, s.Armed row

/-- A settlement whose rows grow keeps its refund armed. -/
theorem Store.Armed.grow {row' : OutboxRow} (armed : s.Armed row)
    (grows : s.Grows s') (becomes : row.Becomes row') : s'.Armed row' := by
  intro authorizes
  obtain ⟨rows, found, entry, mem, seq, event⟩ := armed (becomes.payload.symm.trans authorizes)
  obtain ⟨rows', found', rowsGrow⟩ := grows _ _ found
  rw [← becomes.settlementId] at found'
  exact ⟨rows', found', entry, rowsGrow.journal entry mem, seq.trans becomes.sourceSeq.symm, event⟩

/-- Changing the delivery status of entries. -/
theorem Store.Outgoing.map (outgoing : s.Outgoing)
    (grows : s.Grows s') (h : ∀ row : OutboxRow, row.Becomes (f row))
    (outbox : s'.outbox = s.outbox.map f) : s'.Outgoing where
  derived := outgoing.derived.map (fun row => ⟨(h row).settlementId, (h row).effectId, (h row).payload⟩)
    outbox
  unique := by
    have ids : s'.outbox.map (·.effectId) = s.outbox.map (·.effectId) := by
      rw [outbox, List.map_map]
      exact List.map_congr_left fun row _ => (h row).effectId
    rw [ids]
    exact outgoing.unique
  armed row' mem := by
    rw [outbox, List.mem_map] at mem
    obtain ⟨row, mem, rfl⟩ := mem
    exact (outgoing.armed row mem).grow grows (h row)

section Outcome

variable [LawfulDigests]

variable {s s' : Store}

/-- **A commit that is written keeps the outbox in order.** -/
theorem append_outgoing {rows : Rows} {reapplying : Bool} {req : Store.Commit}
    {result : CommitResult} (done : s.append rows reapplying req = .ok (result, s'))
    (effects : req.effects = effectsToOutbox req.env req.transition.effects)
    {ctx : SettlementContext} (accepted : transition ctx req.env.event = .ok req.transition)
    (grows : s.Grows s') (outgoing : s.Outgoing) :
    s'.Outgoing ∧ OutboxGrows s.outbox s'.outbox := by
  obtain ⟨outbox, appends, -, rfl⟩ := Store.append_eq_ok.mp done
  let s' : Store := { s.setRows req.env.settlementId (Store.commitRows rows reapplying req) with
    outbox := outbox }
  -- the invariant of the loop over the effects
  have loop : (∀ row ∈ outbox, ∃ source, row.effectId =
      deriveEffectId row.settlementId source row.payload) ∧ (outbox.map (·.effectId)).Nodup ∧
      (∀ row ∈ outbox, s'.Armed row) ∧ OutboxGrows s.outbox outbox := by
    refine foldlM_invariant (fun outbox : List OutboxRow => (∀ row ∈ outbox, ∃ source, row.effectId =
      deriveEffectId row.settlementId source row.payload) ∧ (outbox.map (·.effectId)).Nodup ∧
      (∀ row ∈ outbox, s'.Armed row) ∧ OutboxGrows s.outbox outbox) ?_ ⟨outgoing.derived,
      outgoing.unique, fun row mem => (outgoing.armed row mem).grow grows (.refl row), .refl _⟩
      appends.enqueued
    rintro before after effect heffect ⟨derived, unique, armed, grown⟩ hstep
    rw [effects, effectsToOutbox, List.mem_map] at heffect
    obtain ⟨kind, hkind, rfl⟩ := heffect
    obtain rfl | ⟨absent, rfl⟩ := Store.enqueue_cases hstep
    · exact ⟨derived, unique, armed, grown⟩
    · refine ⟨fun row mem => ?_, ?_, fun row mem => ?_, grown.trans (.append _ _)⟩
      · rcases mem_snoc.mp mem with mem | rfl
        · exact derived row mem
        · exact ⟨req.env.eventId, rfl⟩
      · rw [List.map_append, List.map_singleton]
        refine List.nodup_append_comm.mp (List.nodup_cons.mpr ⟨fun mem => ?_, unique⟩)
        obtain ⟨row, hrow, same⟩ := List.mem_map.mp mem
        obtain ⟨source, hsource⟩ := derived row hrow
        rw [hsource] at same
        have own := (LawfulDigests.deriveEffectId_inj same).1
        exact absent row hrow own (by rw [hsource, same])
      · rcases mem_snoc.mp mem with mem | rfl
        · exact armed row mem
        · rintro rfl
          refine ⟨_, Store.setRows_same .., _, List.mem_append_right _ List.mem_cons_self, rfl, ?_⟩
          exact transition_authorizeFunding accepted hkind
  exact ⟨⟨loop.1, loop.2.1, loop.2.2.1⟩, loop.2.2.2⟩

/-- **A fair step keeps the outbox in order.** -/
theorem Moves.outgoing (move : Moves s s') (outgoing : s.Outgoing) :
    s'.Outgoing ∧ OutboxGrows s.outbox s'.outbox := by
  obtain ⟨op, r, fair, done⟩ := move
  have grows := Store.step_grows done
  have unchanged (h : s' = s) : s'.Outgoing ∧ OutboxGrows s.outbox s'.outbox := by
    rw [h]
    exact ⟨outgoing, .refl _⟩
  cases op with
  | store op =>
    cases r with
    | error e => exact unchanged done.1
    | ok value =>
      rcases Store.exec_outbox done with ⟨req, result, rfl, hcommit⟩ | rest
      · obtain ⟨effects, -, faithful⟩ := fair
        obtain ⟨rows, found, ⟨row, -, -, -, rfl⟩ | ⟨-, h⟩ | ⟨row, -, -, -, -, h⟩⟩ :=
          Store.commitTransition_cases hcommit
        · exact unchanged rfl
        all_goals
          obtain ⟨outbox, appends, -⟩ := Store.append_eq_ok.mp h
          obtain ⟨-, -, accepted⟩ := faithful rows found appends.revision
          exact append_outgoing h effects accepted grows outgoing
      · obtain ⟨f, becomes, outbox⟩ : s.Redelivers s' := rest.elim .of_eq And.right
        refine ⟨outgoing.map grows becomes outbox, ?_⟩
        rw [outbox]
        exact .map becomes
  | chain op => exact unchanged done
  | execute effect => exact unchanged done

theorem Evolves.outgoing (run : Evolves s s') (outgoing : s.Outgoing) :
    s'.Outgoing ∧ OutboxGrows s.outbox s'.outbox := by
  induction run with
  | refl => exact ⟨outgoing, .refl _⟩
  | tail _ move ih =>
    obtain ⟨still, grows⟩ := Moves.outgoing move ih.1
    exact ⟨still, ih.2.trans grows⟩

/-! ## One outcome -/

/-- The context of a settlement. -/
def Store.context (s : Store) (id : SettlementId) : Option SettlementContext :=
  (s.settlement id).map (·.context)

section

omit [LawfulDigests]

/-- After a terminal outcome a fair step changes neither it nor the context. -/
theorem Moves.terminal (move : Moves s s') (coherent : s.Coherent)
    {id : SettlementId} {row : TerminalRow} (reached : s.terminal id = some row) :
    s'.terminal id = some row ∧ s'.context id = s.context id := by
  obtain ⟨missing, -⟩ | ⟨rows, rows', found, found', moves⟩ := fairStep_rows move id
  · rw [Store.terminal, missing] at reached
    cases reached
  · rw [Store.terminal, found, Option.bind_some] at reached
    simp only [Store.terminal, Store.context, found, found', Option.bind_some, Option.map_some]
    cases moves with
    | annotate evidence late => exact ⟨reached, rfl⟩
    | commit evidence reapplying req _ _ _ _ _ _ accepted _ =>
      -- a terminal row stands for a terminal context, which accepts nothing
      have live := (transition_eq_ok.mp accepted).1
      have agrees := (coherent id rows found).terminal
      rw [reached, live] at agrees
      cases agrees

theorem Evolves.terminal (run : Evolves s s') (coherent : s.Coherent)
    {id : SettlementId} {row : TerminalRow} (reached : s.terminal id = some row) :
    s'.terminal id = some row ∧ s'.context id = s.context id := by
  induction run with
  | refl => exact ⟨reached, rfl⟩
  | tail earlier move ih =>
    obtain ⟨terminal, context⟩ := Moves.terminal move (coherent.evolves earlier) ih.1
    exact ⟨terminal, context.trans ih.2⟩

/-- A claim hands out entries that are not completed. -/
theorem readyOutbox_open {now leaseMs : Int} {max : UInt32}
    {claimed : List ClaimedEffect} (h : s.readyOutbox now leaseMs max = .ok (claimed, s'))
    {effect : ClaimedEffect} (mem : effect ∈ claimed) :
    ∃ row ∈ s.outbox, row.effectId = effect.effectId ∧ row.completed = false := by
  obtain ⟨row, hrow, -, heffect, -⟩ := exists_of_forall₂ (Store.readyOutbox_claims h).flip mem
  obtain ⟨mem, claimable⟩ := Store.mem_ready.mp (List.mem_of_mem_take hrow)
  refine ⟨row, mem, heffect.symm, ?_⟩
  simp only [Store.claimable, Bool.and_eq_true, Bool.not_eq_true'] at claimable
  exact claimable.1.1

/-- **One economic outcome**, from a state of the store to a later one. -/
structure OneOutcome (s s' : Store) : Prop where
  terminal : ∀ id row, s.terminal id = some row →
    s'.terminal id = some row ∧ s'.context id = s.context id
  armed : ∀ row ∈ s.outbox, s.Armed row
  once : (s'.outbox.map (·.effectId)).Nodup ∧
    s.outbox.map (·.effectId) <+: s'.outbox.map (·.effectId)
  completed : ∀ row ∈ s.outbox, row.completed = true →
    ∀ now leaseMs max claimed s'', s'.readyOutbox now leaseMs max = .ok (claimed, s'') →
      ∀ effect ∈ claimed, effect.effectId ≠ row.effectId

/-- Entries with one identifier are one entry. -/
theorem Store.Outgoing.eq_of_effectId {s : Store} (outgoing : s.Outgoing) {row row' : OutboxRow}
    (mem : row ∈ s.outbox) (mem' : row' ∈ s.outbox) (same : row.effectId = row'.effectId) :
    row = row' :=
  List.inj_on_of_nodup_map outgoing.unique mem mem' same

end

theorem Evolves.oneOutcome (run : Evolves s s') (coherent : s.Coherent)
    (outgoing : s.Outgoing) : OneOutcome s s' where
  terminal _ _ reached := run.terminal coherent reached
  armed := outgoing.armed
  once := ⟨(run.outgoing outgoing).1.unique, (run.outgoing outgoing).2.effectIds⟩
  completed row mem done now leaseMs max claimed s'' h effect heffect same := by
    obtain ⟨later, grows⟩ := run.outgoing outgoing
    obtain ⟨row', mem', becomes⟩ := grows.mem mem
    obtain ⟨row'', mem'', heffectId, notDone⟩ := readyOutbox_open h heffect
    have one := later.eq_of_effectId mem' mem'' (becomes.effectId.trans (heffectId.trans same).symm)
    rw [← one, becomes.completed done] at notDone
    cases notDone

/-- **The callers of a store**: they ingest any event, or call an operation that is no commit. -/
inductive Caller : Prog Ports Unit → Prop
  | ingest (env : EventEnvelope) (cursorUpdate : Option CursorUpdate) :
      Caller (((ingestEvent env cursorUpdate : Client Unit IngestError IngestResult) ()).bind
        fun _ => .done ())
  | operation (op : Op) (h : NoCommit op) : Caller (.call op fun _ => .done ())

omit [LawfulDigests] in
theorem Caller.fair {p : Prog Ports Unit} (caller : Caller p) :
    p.Fair (I := Ports) Store.step Fair := by
  refine ⟨fun s => ?_⟩
  have start : FairLog (I := Ports) Fair (s, []) := fun c mem => by cases mem
  cases caller with
  | ingest env cursorUpdate =>
    have keeping : Act.Keeping (fairRegime (I := Ports) Store.step Fair) (fun _ => True)
        (fun _ => True) (ingestEvent env cursorUpdate : Client Unit IngestError IngestResult) :=
      ingestEvent_owes (fun _ _ _ _ h => h) (fun _ _ h => h) fun _ _ _ h => h
    refine Prog.Safe.bind (Prog.Safe.mono (keeping.safe () (s, []) trivial start) ?_)
    exact fun _ _ _ _ _ => trivial
  | operation op h =>
    intro s₁ r s₂ moved done
    exact ⟨(start.stable moved).called done (fair_of_noCommit h _), fun _ _ => trivial⟩

/-- A run of callers, at any time more of them. -/
abbrev CallerRun : Pool Ports Store Unit → Pool Ports Store Unit → Prop :=
  Relation.ReflTransGen (PoolStep (I := Ports) Store.step Caller)

/-- **Every settlement has one economic outcome**: in every interleaving of any callers on new
settlements, from every state to every later one. -/
theorem one_economic_outcome {s₀ s s' : Store} {ps ps' : List (Prog Ports Unit)}
    (created : Created s₀) (earlier : CallerRun ([], s₀) (ps, s))
    (later : CallerRun (ps, s) (ps', s')) :
    OneOutcome s s' := by
  have coherent := created.coherent
  have empty := created.rows.1
  have outgoing : s₀.Outgoing := by
    refine ⟨fun row mem => ?_, ?_, fun row mem => ?_⟩
    · rw [empty] at mem
      cases mem
    · rw [empty]
      exact List.nodup_nil
    · rw [empty] at mem
      cases mem
  obtain ⟨before, fair⟩ := pool_fair (fun p => Caller.fair) earlier fun p mem => by cases mem
  obtain ⟨after, -⟩ := pool_fair (fun p => Caller.fair) later fair
  exact Evolves.oneOutcome after (coherent.evolves before) (Evolves.outgoing before outgoing).1

end Outcome

/-- One ingestion is a run of callers. -/
theorem callerRun_ingest (ps : List (Prog Ports Unit)) (s : Store) (env : EventEnvelope) :
    ∃ ps', CallerRun (ps, s) (ps', exampleIngested s [env]) := by
  have run := pool_run Caller Store.respond_step ps
    (((ingestEvent env none : Client Unit IngestError IngestResult) ()).bind fun _ => .done ()) s
  have same : ((((ingestEvent env none : Client Unit IngestError IngestResult) ()).bind
      fun _ => .done ()).run Store.respond s).2 = exampleIngested s [env] := by
    rw [Prog.run_bind]
    rfl
  rw [same] at run
  exact ⟨_, .head (.enter _ (.ingest env none)) run⟩

theorem callerRun_ingested (ps : List (Prog Ports Unit)) (s : Store) (envs : List EventEnvelope) :
    ∃ ps', CallerRun (ps, s) (ps', exampleIngested s envs) := by
  induction envs generalizing ps s with
  | nil => exact ⟨ps, .refl⟩
  | cons env rest ih =>
    obtain ⟨ps₁, first⟩ := callerRun_ingest ps s env
    obtain ⟨ps₂, later⟩ := ih ps₁ (exampleIngested s [env])
    exact ⟨ps₂, first.trans later⟩

theorem exampleStore_created (ids : List SettlementId) : Created (exampleStore ids) := by
  have start : Created (.empty tableOrder) := .empty _
  unfold exampleStore
  revert start
  generalize Store.empty tableOrder = s
  intro start
  induction ids generalizing s with
  | nil => exact start
  | cons id rest ih =>
    refine ih _ ?_
    dsimp only
    split
    · rename_i done
      exact .create start done
    · exact start

end History

section Example

attribute [local instance] freeDigests freeDigests_lawful

/-- Evidence at a height. -/
def exampleEvidence (height : UInt64) : EvidenceRef := ⟨0, 7, 0, height, 0⟩

/-- A settlement whose refund is armed, whose funding is observed and which is then refunded. -/
def refundedStore : Store :=
  exampleIngested (exampleStore [1]) [exampleEnvelope 1 .refundArmed,
    exampleEnvelope 1 (.fundingObserved (exampleEvidence 3)),
    exampleEnvelope 1 (.refundConfirmed (exampleEvidence 5))]

/-- A refunded settlement keeps its outcome when its funding is confirmed late. -/
theorem one_economic_outcome_refunded :
    (refundedStore.terminal 1).map TerminalRow.outcome = some .refunded ∧
      OneOutcome refundedStore (exampleIngested refundedStore
        [exampleEnvelope 1 (.fundingConfirmed (exampleEvidence 3))]) := by
  refine ⟨by decide +kernel, ?_⟩
  obtain ⟨ps, earlier⟩ := callerRun_ingested [] (exampleStore [1]) [exampleEnvelope 1 .refundArmed,
    exampleEnvelope 1 (.fundingObserved (exampleEvidence 3)),
    exampleEnvelope 1 (.refundConfirmed (exampleEvidence 5))]
  obtain ⟨ps', later⟩ := callerRun_ingested ps refundedStore
    [exampleEnvelope 1 (.fundingConfirmed (exampleEvidence 3))]
  exact one_economic_outcome (exampleStore_created [1]) earlier later

end Example

end DomProtocol.Settlement
