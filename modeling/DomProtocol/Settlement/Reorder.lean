import DomProtocol.Settlement.Delivery

/-! # Order of delivery (`kaystra-core`, `ingest.rs`)

A batch of envelopes that the machine accepts one by one is delivered to the reorder buffer in all
its orders, and the question is whether every delivery ends in the same context.

Which events of the script were journalled determines the context up to its revision, its height
apart (**`Shows`**). After a delivery every parked envelope still has to wait (**`Delivered`**),
because draining retires what became acceptable. That decides the state of the context after all
deliveries (**`Delivered.state_eq`**), and with observations at one height the whole context
(`Delivered.projection_eq`). -/

namespace DomProtocol.Settlement

/-! ## What a context shows of a script -/

/-- The events of a script: funding and claim, observed and confirmed. -/
inductive Scripted : SettlementEvent → Prop
  | observed (reference : EvidenceRef) : Scripted (.fundingObserved reference)
  | confirmed (reference : EvidenceRef) : Scripted (.fundingConfirmed reference)
  | verified (reference : EvidenceRef) : Scripted (.claimEvidenceVerified reference)
  | claimed (reference : EvidenceRef) : Scripted (.claimConfirmed reference)

variable {event : SettlementEvent}

theorem Scripted.carries (scripted : Scripted event) :
    ∃ reference, acceptedEvidence event = some reference := by
  cases scripted <;> exact ⟨_, rfl⟩

variable {ctx : SettlementContext} {reference : EvidenceRef} {u : Transition}

theorem react_fundingObserved :
    react ctx (.fundingObserved reference) = .ok u ↔
      (ctx.state = .readyToFund ∨ ctx.state = .confirming) ∧
        u = ⟨{ ctx with state := .confirming, lastObservedHeight := some reference.blockHeight },
          []⟩ := by
  obtain ⟨state, revision, height, verified, armed⟩ := ctx
  cases state <;> simp [react, eq_comm]

theorem react_fundingConfirmed :
    react ctx (.fundingConfirmed reference) = .ok u ↔
      ctx.state = .confirming ∧ ctx.lastObservedHeight = some reference.blockHeight ∧
        u = ⟨{ ctx with state := .settling }, []⟩ := by
  obtain ⟨state, revision, height, verified, armed⟩ := ctx
  cases state <;> simp only [react, reduceCtorEq, false_and, true_and]
  by_cases matching : height = some reference.blockHeight <;> simp [matching, eq_comm]

theorem react_claimEvidenceVerified : react ctx (.claimEvidenceVerified reference) = .ok u ↔
      ctx.state = .settling ∧ u = ⟨{ ctx with claimEvidenceVerified := true },
        [.requestClaimConsumption reference]⟩ := by
  obtain ⟨state, revision, height, verified, armed⟩ := ctx
  cases state <;> simp [react, eq_comm]

theorem react_claimConfirmed :
    react ctx (.claimConfirmed reference) = .ok u ↔
      ctx.state = .settling ∧ ctx.claimEvidenceVerified = true ∧
        u = ⟨{ ctx with state := .settled }, [.recordTerminalOutcome .settled]⟩ := by
  obtain ⟨state, revision, height, verified, armed⟩ := ctx
  cases state <;> simp only [react, reduceCtorEq, false_and, true_and]
  cases verified <;> simp [eq_comm]

/-- An accepted event of a script enqueues one effect at most. -/
theorem Scripted.length_effects {t : Transition}
    (scripted : Scripted event) (accepted : transition ctx event = .ok t) :
    t.effects.length ≤ 1 := by
  obtain ⟨-, -, u, reacted, rfl⟩ := transition_eq_ok.mp accepted
  cases scripted with
  | observed reference =>
    obtain ⟨-, rfl⟩ := react_fundingObserved.mp reacted
    exact Nat.zero_le 1
  | confirmed reference =>
    obtain ⟨-, -, rfl⟩ := react_fundingConfirmed.mp reacted
    exact Nat.zero_le 1
  | verified reference =>
    obtain ⟨-, rfl⟩ := react_claimEvidenceVerified.mp reacted
    exact le_rfl
  | claimed reference =>
    obtain ⟨-, -, rfl⟩ := react_claimConfirmed.mp reacted
    exact le_rfl

/-- A live context with revisions left reacts to an event. -/
theorem transition_of_live
    (live : ctx.state.isTerminal = false) (fits : ctx.revision.toNat + 1 < 2 ^ 64) :
    transition ctx event = (react ctx event).map fun t =>
      ⟨{ t.next with revision := ctx.revision + 1 }, t.effects⟩ := by
  have counted : checkedAdd ctx.revision 1 = some (ctx.revision + 1) := by
    rw [checkedAdd_eq_some, UInt64.toNat_add]
    exact Nat.mod_eq_of_lt fits
  rw [transition, rejectIf_of_not _ (by simp [live]), counted, ← react_revision]
  rfl

variable {e : TransitionError}

theorem transition_eq_error
    (live : ctx.state.isTerminal = false) (fits : ctx.revision.toNat + 1 < 2 ^ 64) :
    transition ctx event = .error e ↔ react ctx event = .error e := by
  rw [transition_of_live live fits]
  cases react ctx event <;> simp [Except.map]

/-- What stands against an event of a script. -/
theorem Scripted.react_error (scripted : Scripted event) (refused : react ctx event = .error e) :
    e = .illegalEvent ∨ e = .preconditionUnsatisfied ∨
      ctx.state = .confirming ∧ ∃ reference, event = .fundingConfirmed reference ∧
        ctx.lastObservedHeight ≠ some reference.blockHeight := by
  obtain ⟨state, revision, height, verified, armed⟩ := ctx
  cases scripted with
  | observed reference =>
    cases state <;> cases refused
    all_goals exact .inl rfl
  | confirmed reference =>
    cases state <;> simp only [react] at refused
    case confirming =>
      split at refused
      · rename_i differs
        exact .inr (.inr ⟨rfl, reference, rfl, differs⟩)
      · cases refused
    all_goals
      cases refused
      exact .inl rfl
  | verified reference =>
    cases state <;> cases refused
    all_goals exact .inl rfl
  | claimed reference =>
    cases state <;> simp only [react] at refused
    case settling =>
      split at refused
      · cases refused
        exact .inr (.inl rfl)
      · cases refused
    all_goals
      cases refused
      exact .inl rfl

variable [Digests]

/-- Some envelope of a set carries an event of the kind. -/
def Shown (A : EventEnvelope → Prop) (kind : EvidenceRef → SettlementEvent) : Prop :=
  ∃ env reference, A env ∧ env.event = kind reference

/-- The state that a set of applied envelopes leads to. -/
def Phase (A : EventEnvelope → Prop) : SettlementState → Prop
  | .readyToFund => ∀ env, ¬ A env
  | .confirming => Shown A .fundingObserved ∧
      ∀ env, A env → ∃ reference, env.event = .fundingObserved reference
  | .settling => Shown A .fundingObserved ∧ Shown A .fundingConfirmed ∧ ¬ Shown A .claimConfirmed
  | .settled => Shown A .fundingObserved ∧ Shown A .fundingConfirmed ∧ Shown A .claimConfirmed
  | _ => False

/-- **What a context shows** of the envelopes that were applied since `start`. -/
structure Shows (start : SettlementContext) (A : EventEnvelope → Prop) (ctx : SettlementContext) :
    Prop where
  phase : Phase A ctx.state
  verified : ctx.claimEvidenceVerified = true ↔
    start.claimEvidenceVerified = true ∨ Shown A .claimEvidenceVerified
  settled : ctx.state = .settled → ctx.claimEvidenceVerified = true
  height : (∃ env reference, A env ∧ env.event = .fundingObserved reference ∧
      ctx.lastObservedHeight = some reference.blockHeight) ∨
    ctx.lastObservedHeight = start.lastObservedHeight ∧ ¬ Shown A .fundingObserved
  confirmed : ∀ env reference, A env → env.event = .fundingConfirmed reference →
    ctx.lastObservedHeight = some reference.blockHeight
  single : ∀ env env' reference reference', A env → A env' →
    env.event = .fundingConfirmed reference → env'.event = .fundingConfirmed reference' → env = env'
  armed : ctx.refundPathArmed = start.refundPathArmed

variable {A : EventEnvelope → Prop} {env : EventEnvelope} {kind : EvidenceRef → SettlementEvent}

/-- An envelope is added to a set. -/
theorem shown_insert : Shown (fun e => A e ∨ e = env) kind ↔
      Shown A kind ∨ ∃ reference, env.event = kind reference := by
  constructor
  · rintro ⟨other, reference, applied | rfl, event⟩
    · exact .inl ⟨other, reference, applied, event⟩
    · exact .inr ⟨reference, event⟩
  · rintro (⟨other, reference, applied, event⟩ | ⟨reference, event⟩)
    · exact ⟨other, reference, .inl applied, event⟩
    · exact ⟨env, reference, .inr rfl, event⟩

/-- An envelope of another kind is added. -/
theorem shown_insert_other (other : ∀ reference, env.event ≠ kind reference) :
    Shown (fun e => A e ∨ e = env) kind ↔ Shown A kind := by
  rw [shown_insert]
  exact or_iff_left fun ⟨reference, event⟩ => other reference event

/-- Where only observations were applied, nothing else is shown. -/
theorem not_shown_of_observed (only : ∀ env, A env → ∃ reference, env.event = .fundingObserved reference)
    (other : ∀ seen reference, SettlementEvent.fundingObserved seen ≠ kind reference) :
    ¬ Shown A kind := by
  rintro ⟨env, reference, applied, event⟩
  obtain ⟨seen, observed⟩ := only env applied
  exact other seen reference (observed.symm.trans event)

namespace Shows

variable {start ctx : SettlementContext} {A B : EventEnvelope → Prop} {env : EventEnvelope}

theorem congr (shows : Shows start A ctx) (same : ∀ env, A env ↔ B env) : Shows start B ctx := by
  have equal : A = B := funext fun env => propext (same env)
  rwa [← equal]

/-- Nothing was applied to a context that is ready to fund. -/
theorem ready (ready : start.state = .readyToFund) : Shows start (fun _ => False) start := by
  refine ⟨by rw [ready]; exact fun _ => id, ?_, ?_, .inr ⟨rfl, ?_⟩, fun _ _ applied => applied.elim,
    fun _ _ _ _ applied => applied.elim, rfl⟩
  · exact ⟨.inl, fun h => h.resolve_right fun ⟨_, _, applied, _⟩ => applied⟩
  · rw [ready]
    nofun
  · rintro ⟨_, _, applied, _⟩
    exact applied

/-- Where an observation was shown, the height is one of an applied observation. -/
theorem observed (shows : Shows start A ctx) (shown : Shown A .fundingObserved) :
    ∃ env reference, A env ∧ env.event = .fundingObserved reference ∧
      ctx.lastObservedHeight = some reference.blockHeight :=
  shows.height.resolve_right fun unseen => unseen.2 shown

/-- An envelope that does not confirm the funding is added, and the height stays. -/
theorem insert_other (shows : Shows start A ctx) {next : SettlementContext}
    (other : ∀ reference, env.event ≠ .fundingConfirmed reference)
    (shown : Shown A .fundingObserved)
    (phase : Phase (fun e => A e ∨ e = env) next.state)
    (verified : next.claimEvidenceVerified = true ↔ start.claimEvidenceVerified = true ∨
      Shown (fun e => A e ∨ e = env) .claimEvidenceVerified)
    (settled : next.state = .settled → next.claimEvidenceVerified = true)
    (height : next.lastObservedHeight = ctx.lastObservedHeight)
    (armed : next.refundPathArmed = ctx.refundPathArmed) :
    Shows start (fun e => A e ∨ e = env) next := by
  obtain ⟨e, reference, applied, event, level⟩ := shows.observed shown
  refine ⟨phase, verified, settled, .inl ⟨e, reference, .inl applied, event, height.trans level⟩,
    ?_, ?_, armed.trans shows.armed⟩
  · rintro e' reference' (applied' | rfl) event'
    · exact height.trans (shows.confirmed e' reference' applied' event')
    · exact absurd event' (other reference')
  · rintro e₁ e₂ r₁ r₂ (h₁ | rfl) (h₂ | rfl) event₁ event₂
    · exact shows.single e₁ e₂ r₁ r₂ h₁ h₂ event₁ event₂
    · exact absurd event₂ (other r₂)
    · exact absurd event₁ (other r₁)
    · rfl

/-- **An accepted event is shown** by the next context. -/
theorem step {t : Transition} (shows : Shows start A ctx) (scripted : Scripted env.event)
    (accepted : transition ctx env.event = .ok t) :
    Shows start (fun e => A e ∨ e = env) t.next := by
  obtain ⟨-, -, u, reacted, rfl⟩ := transition_eq_ok.mp accepted
  have phase := shows.phase
  generalize hevent : env.event = event at scripted reacted
  cases scripted with
  | observed reference =>
    obtain ⟨state, rfl⟩ := react_fundingObserved.mp reacted
    -- before the funding is confirmed nothing but observations was applied
    have observations : ∀ e, A e ∨ e = env → ∃ reference, e.event = .fundingObserved reference := by
      rintro e (applied | rfl)
      · rcases state with state | state <;> rw [state] at phase
        · exact absurd applied (phase e)
        · exact phase.2 e applied
      · exact ⟨reference, hevent⟩
    have lone : ¬ Shown _ .fundingConfirmed := not_shown_of_observed observations (by simp)
    refine ⟨⟨shown_insert.mpr (.inr ⟨reference, hevent⟩), observations⟩, ?_, nofun,
      .inl ⟨env, reference, .inr rfl, hevent, rfl⟩,
      fun e reference' applied event => absurd ⟨e, reference', applied, event⟩ lone,
      fun e _ reference' _ applied _ event _ => absurd ⟨e, reference', applied, event⟩ lone,
      shows.armed⟩
    rw [shown_insert_other (by simp [hevent])]
    exact shows.verified
  | confirmed reference =>
    obtain ⟨state, matching, rfl⟩ := react_fundingConfirmed.mp reacted
    rw [state] at phase
    have lone : ¬ Shown _ .fundingConfirmed := not_shown_of_observed phase.2 (by simp)
    obtain ⟨e, reference', applied, event, level⟩ := shows.observed phase.1
    refine ⟨⟨shown_insert.mpr (.inl phase.1), shown_insert.mpr (.inr ⟨reference, hevent⟩), ?_⟩, ?_,
      nofun, .inl ⟨e, reference', .inl applied, event, level⟩, ?_, ?_, shows.armed⟩
    · rw [shown_insert_other (by simp [hevent])]
      exact not_shown_of_observed phase.2 (by simp)
    · rw [shown_insert_other (by simp [hevent])]
      exact shows.verified
    · rintro e reference' (applied | rfl) event
      · exact absurd ⟨e, reference', applied, event⟩ lone
      · rw [hevent] at event
        cases event
        exact matching
    · rintro e₁ e₂ r₁ r₂ (h₁ | rfl) (h₂ | rfl) event₁ event₂
      · exact absurd ⟨e₁, r₁, h₁, event₁⟩ lone
      · exact absurd ⟨e₁, r₁, h₁, event₁⟩ lone
      · exact absurd ⟨e₂, r₂, h₂, event₂⟩ lone
      · rfl
  | verified reference =>
    obtain ⟨state, rfl⟩ := react_claimEvidenceVerified.mp reacted
    rw [state] at phase
    refine shows.insert_other (by simp [hevent]) phase.1 ?_ ?_ (fun _ => rfl) rfl rfl
    · simp only [state]
      exact ⟨shown_insert.mpr (.inl phase.1), shown_insert.mpr (.inl phase.2.1), by
        rw [shown_insert_other (by simp [hevent])]
        exact phase.2.2⟩
    · exact ⟨fun _ => .inr (shown_insert.mpr (.inr ⟨reference, hevent⟩)), fun _ => rfl⟩
  | claimed reference =>
    obtain ⟨state, raised, rfl⟩ := react_claimConfirmed.mp reacted
    rw [state] at phase
    refine shows.insert_other (by simp [hevent]) phase.1 ?_ ?_ (fun _ => raised) rfl rfl
    · exact ⟨shown_insert.mpr (.inl phase.1), shown_insert.mpr (.inl phase.2.1),
        shown_insert.mpr (.inr ⟨reference, hevent⟩)⟩
    · rw [shown_insert_other (by simp [hevent])]
      exact shows.verified

end Shows

/-! ## The machine on a whole batch -/

/-- The machine accepts the envelopes one by one. -/
def acceptAll : SettlementContext → List EventEnvelope → Except TransitionError SettlementContext
  | ctx, [] => .ok ctx
  | ctx, env :: rest => do
    let t ← transition ctx env.event
    acceptAll t.next rest

variable {env : EventEnvelope}

theorem acceptAll_cons {ctx final : SettlementContext}
    {rest : List EventEnvelope} : acceptAll ctx (env :: rest) = .ok final ↔
      ∃ t, transition ctx env.event = .ok t ∧ acceptAll t.next rest = .ok final := by
  rw [acceptAll, bind_eq_ok]

/-- What was accepted is shown in the end. -/
theorem Shows.acceptAll {start ctx final : SettlementContext} {A : EventEnvelope → Prop}
    {batch : List EventEnvelope} (shows : Shows start A ctx)
    (scripted : ∀ env ∈ batch, Scripted env.event)
    (accepted : Settlement.acceptAll ctx batch = .ok final) :
    Shows start (fun e => A e ∨ e ∈ batch) final := by
  induction batch generalizing A ctx with
  | nil =>
    cases accepted
    exact shows.congr fun env => by simp
  | cons env rest ih =>
    obtain ⟨t, first, later⟩ := acceptAll_cons.mp accepted
    rw [List.forall_mem_cons] at scripted
    refine (ih (shows.step scripted.1 first) scripted.2 later).congr fun e => ?_
    rw [List.mem_cons, or_assoc]

variable {ctx : SettlementContext}

omit [Digests] in
/-- An observation is accepted until the funding is confirmed. -/
theorem exists_observed (reference : EvidenceRef)
    (state : ctx.state = .readyToFund ∨ ctx.state = .confirming)
    (fits : ctx.revision.toNat + 1 < 2 ^ 64) :
    ∃ t, transition ctx (.fundingObserved reference) = .ok t ∧ t.next.state = .confirming ∧
      t.next.lastObservedHeight = some reference.blockHeight := by
  have live : ctx.state.isTerminal = false := by rcases state with h | h <;> rw [h] <;> rfl
  exact ⟨_, transition_eq_ok.mpr ⟨live, fits, _, react_fundingObserved.mpr ⟨state, rfl⟩, rfl⟩, rfl,
    rfl⟩

/-- A batch without a confirmation is accepted in every order. -/
theorem acceptAll_observations {envs : List EventEnvelope}
    (state : ctx.state = .readyToFund ∨ ctx.state = .confirming)
    (observations : ∀ env ∈ envs, ∃ reference, env.event = .fundingObserved reference)
    (fits : ctx.revision.toNat + envs.length < 2 ^ 63) :
    ∃ last, acceptAll ctx envs = .ok last ∧
      (last.state = .readyToFund ∨ last.state = .confirming) ∧
      last.revision.toNat = ctx.revision.toNat + envs.length := by
  induction envs generalizing ctx with
  | nil => exact ⟨ctx, rfl, state, rfl⟩
  | cons env rest ih =>
    obtain ⟨⟨reference, event⟩, others⟩ := List.forall_mem_cons.mp observations
    rw [List.length_cons] at fits
    obtain ⟨t, accepted, confirming, -⟩ := exists_observed reference state (by omega)
    rw [← event] at accepted
    have counted := transition_revision_toNat accepted
    obtain ⟨last, later, state', revision⟩ := ih (.inr confirming) others (by omega)
    exact ⟨last, acceptAll_cons.mpr ⟨t, accepted, later⟩, state', by
      rw [revision, List.length_cons]; omega⟩

theorem acceptAll_append {ctx middle : SettlementContext} {first later : List EventEnvelope}
    (accepted : acceptAll ctx first = .ok middle) :
    acceptAll ctx (first ++ later) = acceptAll middle later := by
  induction first generalizing ctx with
  | nil =>
    cases accepted
    rfl
  | cons env rest ih =>
    obtain ⟨t, step, accepted⟩ := acceptAll_cons.mp accepted
    rw [List.cons_append, acceptAll, step, ok_bind, ih accepted]

/-! ## Deliveries to a quiet buffer -/

omit [Digests] in
/-- A context that makes an event wait is live, and only its state stands against the event. -/
theorem Waits.react {event : SettlementEvent} (waits : Waits ctx event) :
    ctx.state.isTerminal = false ∧ (Settlement.react ctx event = .error .illegalEvent ∨
      Settlement.react ctx event = .error .preconditionUnsatisfied) := by
  unfold Waits transition at waits
  by_cases terminal : ctx.state.isTerminal = true
  · rw [rejectIf_of _ terminal] at waits
    rcases waits with waits | waits <;> cases waits
  · rw [rejectIf_of_not _ terminal] at waits
    refine ⟨Bool.eq_false_of_not_eq_true terminal, ?_⟩
    cases counted : checkedAdd ctx.revision 1 with
    | none =>
      rw [counted] at waits
      rcases waits with waits | waits <;> cases waits
    | some revision =>
      simp only [counted, okOr, ok_bind, react_revision] at waits
      cases reacted : Settlement.react ctx event with
      | ok u =>
        rw [reacted] at waits
        rcases waits with waits | waits <;> cases waits
      | error e =>
        rw [reacted] at waits
        simpa [Except.map] using waits

/-- A script whose funding is at one height, with distinct envelopes that fit their columns. -/
structure Script (batch : List EventEnvelope) (height : UInt64) : Prop where
  scripted : ∀ env ∈ batch, Scripted env.event
  distinct : ∀ env ∈ batch, ∀ other ∈ batch, other.eventId = env.eventId → other = env
  level : ∀ env ∈ batch, ∀ reference, env.event = .fundingObserved reference ∨
    env.event = .fundingConfirmed reference → reference.blockHeight = height
  fits : ∀ env ∈ batch, ∀ reference, acceptedEvidence env.event = some reference →
    reference.blockHeight.toNat < 2 ^ 63

/-- How many envelopes of a batch are not journalled. -/
def Rows.missing (rows : Rows) (batch : List EventEnvelope) : Nat :=
  (batch.filter fun env => ¬ rows.Has env).length

/-- **The standing of a batch**: the store has its desk, its context shows what was journalled, and
the counters have room for the rest. -/
structure Standing (id : SettlementId) (batch : List EventEnvelope) (start : SettlementContext)
    (s : Store) (rows : Rows) : Prop where
  desk : Desk id batch s rows
  shows : Shows start (fun env => env ∈ batch ∧ rows.Has env) rows.context
  revisions : rows.revision.toNat + rows.missing batch < 2 ^ 63
  sequences : rows.lastEventSeq.toNat + rows.missing batch < 2 ^ 63

namespace Ingested

variable {rows rows' : Rows} {env : EventEnvelope} {result : IngestResult}

/-- The journal afterwards. -/
theorem has_iff (ingested : Ingested rows env result rows') (other : EventEnvelope) :
    rows'.Has other ↔
      rows.Has other ∨ (∃ revision, result = .committed revision) ∧ other.eventId = env.eventId := by
  cases ingested with
  | late _ _ journal _ _ | parked _ _ journal _ _ => simp [Rows.Has, Rows.journalled, journal]
  | committed accepted context journal seq revision =>
    obtain ⟨row, grown, key⟩ := journal
    simp only [Rows.Has, Rows.journalled, grown, List.find?_append]
    cases found : rows.journal.find? fun row => row.eventId = other.eventId with
    | some row => simp
    | none =>
      by_cases same : env.eventId = other.eventId
      · simp [key, same]
      · simp [key, same, Ne.symm same]

/-- What a commit changed. -/
theorem of_committed {revision : UInt64}
    (ingested : Ingested rows env (.committed revision) rows') :
    ∃ t, transition rows.context env.event = .ok t ∧ rows'.context = t.next ∧
      rows'.lastEventSeq.toNat = rows.lastEventSeq.toNat + 1 ∧
      rows'.revision.toNat = rows.revision.toNat + 1 := by
  generalize same : IngestResult.committed revision = result at ingested
  cases ingested with
  | late => cases same
  | parked => cases same
  | committed accepted context journal seq revision => exact ⟨_, accepted, context, seq, revision⟩

/-- A terminal context stays terminal. -/
theorem terminal (ingested : Ingested rows env result rows')
    (terminal : rows.context.state.isTerminal = true) :
    rows'.context.state.isTerminal = true := by
  cases ingested with
  | late _ context journal seq revision => rwa [context]
  | parked waits context journal seq revision => rwa [context]
  | committed accepted context journal seq revision =>
    rw [(transition_eq_ok.mp accepted).1] at terminal
    cases terminal

/-- Either the envelope has to wait, or it is done with. -/
theorem waits_or_retired (ingested : Ingested rows env result rows') :
    (result = .parkedForReorder ∧ Waits rows.context env.event ∧ rows'.context = rows.context) ∨
      result ≠ .parkedForReorder ∧
        (rows'.Has env ∨ rows'.context.state.isTerminal = true) := by
  have has := ingested.has_iff env
  cases ingested with
  | late terminal context journal seq revision => exact .inr ⟨nofun, .inr (context ▸ terminal)⟩
  | parked waits context journal seq revision => exact .inl ⟨rfl, waits, context⟩
  | committed accepted context journal seq revision =>
    exact .inr ⟨nofun, .inl (has.mpr (.inr ⟨⟨_, rfl⟩, rfl⟩))⟩

end Ingested

/-- A journalled envelope is missing no more. -/
theorem Rows.missing_lt {rows rows' : Rows} {batch : List EventEnvelope}
    (grows : ∀ other, rows.Has other → rows'.Has other) (mem : env ∈ batch) (fresh : ¬ rows.Has env)
    (has : rows'.Has env) : rows'.missing batch < rows.missing batch := by
  have nested : (batch.filter fun e => ¬ rows'.Has e) =
      (batch.filter fun e => ¬ rows.Has e).filter fun e => ¬ rows'.Has e := by
    rw [List.filter_filter]
    refine List.filter_congr fun e _ => ?_
    by_cases h : rows.Has e
    · simp [grows e h]
    · simp [h]
  rw [Rows.missing, nested, Rows.missing, List.length_filter_lt_length_iff_exists]
  exact ⟨env, List.mem_filter.mpr ⟨mem, by simpa using fresh⟩, by simpa using has⟩

namespace Standing

variable {id : SettlementId} {batch : List EventEnvelope} {start : SettlementContext} {s : Store}
  {rows : Rows} {height : UInt64} {env : EventEnvelope} {c : Option CursorUpdate} {μ : Type}
  {m : μ}

/-- A script at one height is never refused for good. -/
theorem waits (standing : Standing id batch start s rows) (script : Script batch height)
    (mem : env ∈ batch) (live : rows.context.state.isTerminal = false) {e : TransitionError}
    (refused : transition rows.context env.event = .error e) : Waits rows.context env.event := by
  have fits : rows.context.revision.toNat + 1 < 2 ^ 64 := by
    have := standing.revisions
    rw [standing.desk.revision] at this
    omega
  have reacted := (transition_eq_error live fits).mp refused
  rcases (script.scripted env mem).react_error reacted with rfl | rfl | ⟨state, reference, hevent, other⟩
  · exact .inl refused
  · exact .inr refused
  · -- the last observation was at the height of the script
    have phase := standing.shows.phase
    rw [state] at phase
    obtain ⟨observed, seen, ⟨member, -⟩, event, last⟩ := standing.shows.observed phase.1
    have level : seen.blockHeight = reference.blockHeight :=
      (script.level observed member seen (.inl event)).trans
        (script.level env mem reference (.inr hevent)).symm
    rw [last, level] at other
    exact absurd rfl other

/-- Rows with the same context, journal and counters keep the standing. -/
theorem of_same (standing : Standing id batch start s rows) {s' : Store} {rows' : Rows}
    (desk : Desk id batch s' rows') (context : rows'.context = rows.context)
    (journal : rows'.journal = rows.journal) (seq : rows'.lastEventSeq = rows.lastEventSeq)
    (revision : rows'.revision = rows.revision) : Standing id batch start s' rows' := by
  have has : ∀ e, rows'.Has e ↔ rows.Has e := fun e => by
    simp only [Rows.Has, Rows.journalled, journal]
  have missing : rows'.missing batch = rows.missing batch := by
    simp only [Rows.missing, has]
  refine ⟨desk, ?_, ?_, ?_⟩
  · rw [context]
    exact standing.shows.congr fun e => by rw [has]
  · rw [revision, missing]
    exact standing.revisions
  · rw [seq, missing]
    exact standing.sequences

/-- **A first delivery keeps the standing** and meets no error. -/
theorem ingest [LawfulDigests] (standing : Standing id batch start s rows)
    (script : Script batch height) (mem : env ∈ batch) (fresh : ¬ rows.Has env) :
    ∃ result s' rows', Runs (ingestEvent env c) m s
      (.ok result) m s' ∧ Standing id batch start s' rows' ∧ Ingested rows env result rows' := by
  obtain ⟨reference, carries⟩ := (script.scripted env mem).carries
  have distinct := script.distinct env mem
  by_cases terminal : rows.context.state.isTerminal = true
  · obtain ⟨s', rows', run, desk, ingested⟩ :=
      standing.desk.late (c := c) (m := m) mem fresh terminal
    refine ⟨_, s', rows', run, ?_, ingested⟩
    cases ingested with
    | late _ context journal seq revision =>
      exact standing.of_same desk context journal seq revision
  have live := Bool.eq_false_of_not_eq_true terminal
  cases moved : transition rows.context env.event with
  | error e =>
    obtain ⟨s', rows', run, desk, ingested⟩ :=
      standing.desk.park (c := c) (m := m) mem fresh
        (standing.waits script mem live moved) carries (script.fits env mem reference carries)
        distinct
    refine ⟨_, s', rows', run, ?_, ingested⟩
    cases ingested with
    | parked _ context journal seq revision =>
      exact standing.of_same desk context journal seq revision
  | ok t =>
    have positive : 0 < rows.missing batch :=
      List.length_pos_of_mem (List.mem_filter.mpr ⟨mem, by simpa using fresh⟩)
    have fits : Fits rows env := by
      have revisions := standing.revisions
      have sequences := standing.sequences
      exact ⟨by omega, by omega, script.fits env mem⟩
    rcases standing.desk.commit (c := c) (m := m) mem fresh moved
      ((script.scripted env mem).length_effects moved) carries distinct with
      ⟨-, s', rows', run, desk, ingested⟩ | ⟨overflow, -⟩
    · refine ⟨_, s', rows', run, ?_, ingested⟩
      have has := ingested.has_iff
      have less : rows'.missing batch < rows.missing batch :=
        Rows.missing_lt (fun other h => (has other).mpr (.inl h)) mem fresh
          ((has env).mpr (.inr ⟨⟨_, rfl⟩, rfl⟩))
      obtain ⟨u, accepted, context, seq, revision⟩ := ingested.of_committed
      have revisions := standing.revisions
      have sequences := standing.sequences
      refine ⟨desk, ?_, by omega, by omega⟩
      rw [context]
      refine (standing.shows.step (script.scripted env mem) accepted).congr fun e => ?_
      rw [has]
      constructor
      · rintro (⟨e_mem, h⟩ | rfl)
        · exact ⟨e_mem, .inl h⟩
        · exact ⟨mem, .inr ⟨⟨_, rfl⟩, rfl⟩⟩
      · rintro ⟨e_mem, h | ⟨-, same⟩⟩
        · exact .inl ⟨e_mem, h⟩
        · exact .inr (distinct e e_mem same)
    · exact absurd fits overflow

end Standing

/-! ## Draining -/

/-- **What draining does**: of the envelopes `todo`, those in `kept` are still parked. -/
structure Drained (batch todo : List EventEnvelope) (rows : Rows) (kept : List EventEnvelope)
    (rows' : Rows) : Prop where
  sublist : kept.Sublist todo
  absent : ∀ env ∈ kept, ¬ rows'.Has env
  retired : ∀ env ∈ todo, env ∉ kept → rows'.Has env ∨ rows'.context.state.isTerminal = true
  grows : ∀ env, rows.Has env → rows'.Has env
  only : ∀ env ∈ batch, rows'.Has env → rows.Has env ∨ env ∈ todo
  terminal : rows.context.state.isTerminal = true → rows'.context.state.isTerminal = true

namespace Drained

variable {batch todo kept : List EventEnvelope} {rows rows' : Rows}

theorem refl (absent : ∀ env ∈ todo, ¬ rows.Has env) : Drained batch todo rows todo rows :=
  ⟨.refl _, absent, fun _ mem out => absurd mem out, fun _ => id, fun _ _ => .inl, id⟩

theorem trans {last : List EventEnvelope} {rows'' : Rows} (first : Drained batch todo rows kept rows')
    (second : Drained batch kept rows' last rows'') : Drained batch todo rows last rows'' := by
  refine ⟨second.sublist.trans first.sublist, second.absent, ?_, fun env h =>
    second.grows env (first.grows env h), ?_, fun h => second.terminal (first.terminal h)⟩
  · intro env mem out
    by_cases middle : env ∈ kept
    · exact second.retired env middle out
    · exact (first.retired env mem middle).imp (second.grows env) second.terminal
  · intro env mem h
    rcases second.only env mem h with h | h
    · exact first.only env mem h
    · exact .inr (first.sublist.subset h)

end Drained

section Draining

variable [LawfulDigests] {id : SettlementId} {batch : List EventEnvelope}
  {start : SettlementContext} {height : UInt64} (script : Script batch height)
include script

variable {s : Store} {rows : Rows}

/-- **One pass of retries**. A pass without progress changed nothing, and every envelope has to
wait. -/
theorem retryAll_runs (todo still : List EventEnvelope) (progressed : Bool) {m : ReorderBuffer}
    (standing : Standing id batch start s rows)
    (members : ∀ env ∈ todo, env ∈ batch ∧ ¬ rows.Has env) (nodup : todo.Nodup) :
    ∃ kept left s' rows', Runs (retryAll todo still progressed) m s
        (.ok (still ++ kept, progressed || left)) m s' ∧
      Standing id batch start s' rows' ∧ Drained batch todo rows kept rows' ∧
      (left = false → rows'.context = rows.context ∧
        ∀ env ∈ kept, Waits rows.context env.event) ∧
      (left = true → kept.length < todo.length) := by
  induction todo generalizing still progressed s rows with
  | nil =>
    refine ⟨[], false, s, rows, ?_, standing, .refl (by simp), fun _ => ⟨rfl, by simp⟩, nofun⟩
    rw [List.append_nil, Bool.or_false]
    exact Act.runs_pure _ _ _
  | cons env rest ih =>
    obtain ⟨⟨mem, fresh⟩, others⟩ := List.forall_mem_cons.mp members
    obtain ⟨new, nodup⟩ := List.nodup_cons.mp nodup
    obtain ⟨result, s₁, rows₁, run, standing₁, ingested⟩ :=
      standing.ingest (c := none) (m := m) script mem fresh
    have has := ingested.has_iff
    -- the other envelopes have other identifiers
    have foreign : ∀ other ∈ rest, other.eventId ≠ env.eventId := by
      intro other other_mem same
      rw [script.distinct env mem other (others other other_mem).1 same] at other_mem
      exact new other_mem
    have members₁ : ∀ other ∈ rest, other ∈ batch ∧ ¬ rows₁.Has other := by
      intro other other_mem
      refine ⟨(others other other_mem).1, fun h => ?_⟩
      rcases (has other).mp h with h | ⟨-, same⟩
      · exact (others other other_mem).2 h
      · exact foreign other other_mem same
    rcases ingested.waits_or_retired with ⟨rfl, waits, context⟩ | ⟨left, retired⟩
    · have same : ∀ other, rows₁.Has other ↔ rows.Has other := fun other => by simp [has]
      obtain ⟨kept, left, s', rows', later, standing', drained, quiet, less⟩ :=
        ih (still ++ [env]) progressed standing₁ members₁ nodup
      refine ⟨env :: kept, left, s', rows', run.bind ?_, standing', ?_, ?_, ?_⟩
      · rw [List.append_assoc] at later
        exact later
      · refine ⟨drained.sublist.cons_cons env, ?_, ?_, fun e h => drained.grows e ((same e).mpr h),
          ?_, fun h => drained.terminal (context ▸ h)⟩
        · rintro e (_ | ⟨_, e_mem⟩) h
          · rcases drained.only env mem h with h | h
            · exact fresh ((same env).mp h)
            · exact new h
          · exact drained.absent e e_mem h
        · rintro e e_mem out
          rw [List.mem_cons, not_or] at out
          exact drained.retired e ((List.mem_cons.mp e_mem).resolve_left out.1) out.2
        · intro e e_mem h
          exact (drained.only e e_mem h).imp (same e).mp (List.mem_cons_of_mem env)
      · intro idle
        obtain ⟨unchanged, waiting⟩ := quiet idle
        rw [context] at unchanged waiting
        exact ⟨unchanged, List.forall_mem_cons.mpr ⟨waits, waiting⟩⟩
      · intro moved
        exact Nat.succ_lt_succ (less moved)
    · obtain ⟨kept, later_left, s', rows', later, standing', drained, -, -⟩ :=
        ih still true standing₁ members₁ nodup
      have shorter := drained.sublist.length_le
      refine ⟨kept, true, s', rows', run.bind ?_, standing', ?_, nofun, fun _ =>
        Nat.lt_succ_of_le shorter⟩
      · rw [Bool.true_or] at later
        rw [Bool.or_true]
        cases result with
        | parkedForReorder => exact absurd rfl left
        | _ => exact later
      · refine ⟨drained.sublist.cons env, drained.absent, ?_, fun e h =>
          drained.grows e ((has e).mpr (.inl h)), ?_, fun h => drained.terminal
            (ingested.terminal h)⟩
        · rintro e e_mem out
          rcases List.mem_cons.mp e_mem with rfl | e_mem
          · exact retired.imp (drained.grows e) drained.terminal
          · exact drained.retired e e_mem out
        · intro e e_mem h
          rcases drained.only e e_mem h with h | h
          · rcases (has e).mp h with h | ⟨-, same⟩
            · exact .inl h
            · exact .inr (List.mem_cons.mpr (.inl (script.distinct env mem e e_mem same)))
          · exact .inr (List.mem_cons_of_mem env h)

variable {parked : ReorderBuffer}

/-- One pass over the buffer. -/
theorem drainPass_runs (standing : Standing id batch start s rows)
    (members : ∀ env ∈ parked, env ∈ batch ∧ ¬ rows.Has env) (nodup : parked.Nodup) :
    ∃ kept left s' rows', Runs drainPass parked s (.ok left) kept s' ∧
      Standing id batch start s' rows' ∧ Drained batch parked rows kept rows' ∧
      (left = false → rows'.context = rows.context ∧
        ∀ env ∈ kept, Waits rows.context env.event) ∧
      (left = true → kept.length < parked.length) := by
  obtain ⟨kept, left, s', rows', run, rest⟩ :=
    retryAll_runs script parked [] false (m := []) standing members nodup
  refine ⟨kept, left, s', rows', ?_, rest⟩
  refine (Act.runs_get parked s).bind ((Act.runs_modify _ parked s).bind (run.bind ?_))
  exact (Act.runs_modify _ _ _).bind (Act.runs_pure _ _ _)

/-- **Draining ends in quiescence**: what is still parked has to wait. -/
theorem drainPasses_runs {passes : Nat} (standing : Standing id batch start s rows)
    (members : ∀ env ∈ parked, env ∈ batch ∧ ¬ rows.Has env) (nodup : parked.Nodup)
    (enough : parked.length ≤ passes) :
    ∃ kept s' rows', Runs (drainPasses passes) parked s (.ok ()) kept
        s' ∧
      Standing id batch start s' rows' ∧ Drained batch parked rows kept rows' ∧
      ∀ env ∈ kept, Waits rows'.context env.event := by
  induction passes generalizing parked s rows with
  | zero =>
    have empty : parked = [] := List.eq_nil_of_length_eq_zero (Nat.le_zero.mp enough)
    subst empty
    exact ⟨[], s, rows, Act.runs_pure _ _ _, standing, .refl (by simp), by simp⟩
  | succ passes ih =>
    obtain ⟨kept, left, s₁, rows₁, run, standing₁, drained, quiet, less⟩ :=
      drainPass_runs script standing members nodup
    by_cases stop : left = false ∨ kept = []
    · refine ⟨kept, s₁, rows₁, run.bind ((Act.runs_get _ _).bind ?_), standing₁, drained, ?_⟩
      · rw [if_pos stop]
        exact Act.runs_pure _ _ _
      · rcases stop with idle | empty
        · obtain ⟨unchanged, waiting⟩ := quiet idle
          rwa [unchanged]
        · rw [empty]
          nofun
    · -- the next pass has one envelope less
      have moved : left = true := Bool.eq_true_of_not_eq_false fun h => stop (.inl h)
      obtain ⟨kept', s', rows', later, standing', drained', waiting⟩ :=
        ih standing₁ (fun env mem => ⟨(members env (drained.sublist.subset mem)).1,
          drained.absent env mem⟩) (nodup.sublist drained.sublist) (by have := less moved; omega)
      refine ⟨kept', s', rows', run.bind ((Act.runs_get _ _).bind ?_), standing',
        drained.trans drained', waiting⟩
      rwa [if_neg stop]

end Draining

/-! ## Deliveries -/

theorem ReorderBuffer.mem_sort {parked : ReorderBuffer} :
    env ∈ ReorderBuffer.sort parked ↔ env ∈ parked :=
  (List.perm_insertionSort _ parked).mem_iff

/-- **After the deliveries `D`**: the buffer `P` holds what has to wait, and everything else that was
delivered is in the journal or came late. -/
structure Delivered (id : SettlementId) (batch : List EventEnvelope) (start : SettlementContext)
    (D P : List EventEnvelope) (s : Store) (rows : Rows) : Prop where
  standing : Standing id batch start s rows
  nodup : P.Nodup
  parked : ∀ env ∈ P, env ∈ batch ∧ env ∈ D ∧ ¬ rows.Has env
  waits : ∀ env ∈ P, Waits rows.context env.event
  covered : ∀ env ∈ D, rows.Has env ∨ env ∈ P ∨ rows.context.state.isTerminal = true
  only : ∀ env ∈ batch, rows.Has env → env ∈ D

/-- Deliver an envelope with the cursor update that came with it. -/
def deliverOne (delivery : EventEnvelope × Option CursorUpdate) :
    Client ReorderBuffer IngestError Unit := do
  let _ ← ReorderBuffer.ingest delivery.1 delivery.2
  pure ()

/-- Deliver envelopes one after the other. -/
def deliverAll (deliveries : List (EventEnvelope × Option CursorUpdate)) :
    Client ReorderBuffer IngestError Unit :=
  Act.forEach deliverOne deliveries

theorem runs_deliverOne {delivery : EventEnvelope × Option CursorUpdate} {P P' : ReorderBuffer}
    {s s' : Store} {result : IngestResult}
    (run : Runs (ReorderBuffer.ingest delivery.1 delivery.2) P s
      (.ok result) P' s') :
    Runs (deliverOne delivery) P s (.ok ()) P' s' :=
  run.bind (Act.runs_pure _ _ _)

namespace Delivered

variable [LawfulDigests] {id : SettlementId} {batch D P : List EventEnvelope}
  {start : SettlementContext} {s : Store} {rows : Rows} {height : UInt64}

/-- **One delivery.** -/
theorem ingest (delivered : Delivered id batch start D P s rows) (script : Script batch height)
    (cursor : Option CursorUpdate) (mem : env ∈ batch) (new : env ∉ D) :
    ∃ result P' s' rows', Runs (ReorderBuffer.ingest env cursor) P s
      (.ok result) P' s' ∧ Delivered id batch start (env :: D) P' s' rows' := by
  have fresh : ¬ rows.Has env := fun has => new (delivered.only env mem has)
  have outside : env ∉ P := fun parked => new (delivered.parked env parked).2.1
  obtain ⟨result, s₁, rows₁, run, standing, ingested⟩ :=
    delivered.standing.ingest (c := cursor) (m := P) script mem fresh
  have has := ingested.has_iff
  have only : ∀ e ∈ batch, rows₁.Has e → e ∈ env :: D := by
    intro e e_mem h
    rcases (has e).mp h with h | ⟨-, same⟩
    · exact List.mem_cons_of_mem env (delivered.only e e_mem h)
    · exact List.mem_cons.mpr (.inl (script.distinct env mem e e_mem same))
  cases result with
  | parkedForReorder =>
    obtain ⟨-, waits, context⟩ := ingested.waits_or_retired.resolve_right fun h => h.1 rfl
    have same : ∀ e, rows₁.Has e ↔ rows.Has e := fun e => by simp [has]
    have buffer : ∀ e, e ∈ ReorderBuffer.park env P ↔ e ∈ P ∨ e = env := by
      intro e
      rw [ReorderBuffer.park, if_neg outside, ReorderBuffer.mem_sort, List.mem_append,
        List.mem_singleton]
    refine ⟨_, ReorderBuffer.park env P, s₁, rows₁, run.bind ((Act.runs_modify _ _ _).bind
      (Act.runs_pure _ _ _)), standing, ?_, ?_, ?_, ?_, only⟩
    · rw [ReorderBuffer.park, if_neg outside]
      refine (List.perm_insertionSort _ _).nodup_iff.mpr (delivered.nodup.append
        (List.nodup_singleton env) ?_)
      simpa using outside
    · intro e e_mem
      rw [same]
      rcases (buffer e).mp e_mem with e_mem | rfl
      · obtain ⟨h₁, h₂, h₃⟩ := delivered.parked e e_mem
        exact ⟨h₁, List.mem_cons_of_mem env h₂, h₃⟩
      · exact ⟨mem, List.mem_cons_self, fresh⟩
    · intro e e_mem
      rw [context]
      rcases (buffer e).mp e_mem with e_mem | rfl
      · exact delivered.waits e e_mem
      · exact waits
    · intro e e_mem
      rw [same, context, buffer]
      rcases List.mem_cons.mp e_mem with rfl | e_mem
      · exact .inr (.inl (.inr rfl))
      · exact (delivered.covered e e_mem).imp_right (Or.imp_left .inl)
  | committed revision =>
    have foreign : ∀ e ∈ P, e ∈ batch ∧ ¬ rows₁.Has e := by
      intro e e_mem
      obtain ⟨e_batch, -, absent⟩ := delivered.parked e e_mem
      refine ⟨e_batch, fun h => ?_⟩
      rcases (has e).mp h with h | ⟨-, same⟩
      · exact absent h
      · rw [script.distinct env mem e e_batch same] at e_mem
        exact outside e_mem
    obtain ⟨kept, s', rows', drain, standing', drained, waits⟩ :=
      drainPasses_runs script standing foreign delivered.nodup le_rfl
    refine ⟨_, kept, s', rows', run.bind (((Act.runs_get P s₁).bind drain).bind
      (Act.runs_pure _ _ _)), standing', delivered.nodup.sublist drained.sublist, ?_, waits, ?_, ?_⟩
    · intro e e_mem
      obtain ⟨h₁, h₂, -⟩ := delivered.parked e (drained.sublist.subset e_mem)
      exact ⟨h₁, List.mem_cons_of_mem env h₂, drained.absent e e_mem⟩
    · intro e e_mem
      rcases List.mem_cons.mp e_mem with rfl | e_mem
      · exact .inl (drained.grows e ((has e).mpr (.inr ⟨⟨_, rfl⟩, rfl⟩)))
      · rcases delivered.covered e e_mem with h | h | h
        · exact .inl (drained.grows e ((has e).mpr (.inl h)))
        · by_cases still : e ∈ kept
          · exact .inr (.inl still)
          · exact (drained.retired e h still).imp_right .inr
        · exact .inr (.inr (drained.terminal (ingested.terminal h)))
    · intro e e_mem h
      rcases drained.only e e_mem h with h | h
      · exact only e e_mem h
      · exact List.mem_cons_of_mem env (delivered.parked e h).2.1
  | lateNoEconomicEffect =>
    cases ingested with
    | late terminal context journal seq revision =>
      have same : ∀ e, rows₁.Has e ↔ rows.Has e := fun e => by simp [has]
      refine ⟨_, P, s₁, rows₁, run.bind (Act.runs_pure _ _ _), standing, delivered.nodup,
        fun e e_mem => ?_, fun e e_mem => context ▸ delivered.waits e e_mem, fun e _ =>
        .inr (.inr (context ▸ terminal)), only⟩
      obtain ⟨h₁, h₂, h₃⟩ := delivered.parked e e_mem
      exact ⟨h₁, List.mem_cons_of_mem env h₂, fun h => h₃ ((same e).mp h)⟩
  | _ => cases ingested

/-- **All deliveries.** -/
theorem deliverAll (delivered : Delivered id batch start D P s rows) (script : Script batch height)
    (deliveries : List (EventEnvelope × Option CursorUpdate))
    (members : ∀ env ∈ deliveries.map Prod.fst, env ∈ batch ∧ env ∉ D)
    (nodup : (deliveries.map Prod.fst).Nodup) :
    ∃ D' P' s' rows', Runs (Settlement.deliverAll deliveries) P s
        (.ok ()) P' s' ∧ Delivered id batch start D' P' s' rows' ∧
      ∀ env, env ∈ D' ↔ env ∈ D ∨ env ∈ deliveries.map Prod.fst := by
  induction deliveries generalizing D P s rows with
  | nil => exact ⟨D, P, s, rows, Act.runs_pure _ _ _, delivered, fun env => by simp⟩
  | cons delivery rest ih =>
    rw [List.map_cons] at members nodup
    obtain ⟨⟨mem, new⟩, others⟩ := List.forall_mem_cons.mp members
    obtain ⟨out, nodup⟩ := List.nodup_cons.mp nodup
    obtain ⟨result, P₁, s₁, rows₁, run, delivered₁⟩ := delivered.ingest script delivery.2 mem new
    have members₁ : ∀ env ∈ rest.map Prod.fst, env ∈ batch ∧ env ∉ delivery.1 :: D := by
      intro env env_mem
      refine ⟨(others env env_mem).1, fun h => ?_⟩
      rcases List.mem_cons.mp h with rfl | h
      · exact out env_mem
      · exact (others env env_mem).2 h
    obtain ⟨D', P', s', rows', later, delivered', mem_iff⟩ := ih delivered₁ members₁ nodup
    refine ⟨D', P', s', rows', (runs_deliverOne run).bind later, delivered', fun env => ?_⟩
    rw [mem_iff, List.map_cons, List.mem_cons, List.mem_cons]
    exact ⟨fun h => by tauto, fun h => by tauto⟩

end Delivered

/-! ## Quiescence -/

section Quiet

variable {id : SettlementId} {batch D P : List EventEnvelope} {start : SettlementContext} {s : Store}
  {rows : Rows} {env : EventEnvelope} {reference : EvidenceRef}

omit [Digests] in
theorem not_waits_of_react {ctx : SettlementContext} {event : SettlementEvent}
    (accepted : ∃ u, react ctx event = .ok u) : ¬ Waits ctx event := by
  intro waits
  obtain ⟨u, accepted⟩ := accepted
  rcases waits.react.2 with refused | refused <;> rw [accepted] at refused <;> cases refused

variable (delivered : Delivered id batch start D P s rows)
include delivered

/-- In a live context, a delivered envelope that does not have to wait is in the journal. -/
theorem Delivered.has (given : env ∈ D)
    (live : rows.context.state.isTerminal = false) (free : ¬ Waits rows.context env.event) :
    rows.Has env := by
  rcases delivered.covered env given with has | parked | terminal
  · exact has
  · exact absurd (delivered.waits env parked) free
  · rw [live] at terminal
    cases terminal

/-- A delivered observation has brought the settlement out of `ReadyToFund`. -/
theorem Delivered.not_ready (mem : env ∈ batch)
    (given : env ∈ D) (event : env.event = .fundingObserved reference) :
    rows.context.state ≠ .readyToFund := by
  intro state
  have phase := delivered.standing.shows.phase
  rw [state] at phase
  refine phase env ⟨mem, delivered.has given (by rw [state]; rfl) (not_waits_of_react ?_)⟩
  rw [event]
  exact ⟨_, react_fundingObserved.mpr ⟨.inl state, rfl⟩⟩

/-- A delivered confirmation has brought it out of `Confirming`. -/
theorem Delivered.not_confirming (mem : env ∈ batch) (given : env ∈ D)
    (event : env.event = .fundingConfirmed reference) :
    rows.context.state ≠ .confirming := by
  intro state
  have phase := delivered.standing.shows.phase
  rw [state] at phase
  have has := delivered.has given (by rw [state]; rfl) fun waits => by
    -- whatever its height, a confirmation does not have to wait here
    rcases waits.react.2 with refused | refused
    all_goals
      rw [event, react, state] at refused
      simp only at refused
      split at refused <;> cases refused
  exact not_shown_of_observed phase.2 (by simp) ⟨env, reference, ⟨mem, has⟩, event⟩

/-- Delivered claim evidence was verified once the settlement is `Settling`. -/
theorem Delivered.has_verified (given : env ∈ D)
    (event : env.event = .claimEvidenceVerified reference)
    (state : rows.context.state = .settling) : rows.Has env := by
  refine delivered.has given (by rw [state]; rfl) (not_waits_of_react ?_)
  rw [event]
  exact ⟨_, react_claimEvidenceVerified.mpr ⟨state, rfl⟩⟩

end Quiet

/-- Funding is observed once, unless the claim is confirmed as well: after the confirmation of the
funding, an observation can only come late. -/
def ObservedOnce (batch : List EventEnvelope) : Prop :=
  Shown (· ∈ batch) .fundingConfirmed → ¬ Shown (· ∈ batch) .claimConfirmed →
    ∀ env ∈ batch, ∀ env' ∈ batch, ∀ reference reference', env.event = .fundingObserved reference →
      env'.event = .fundingObserved reference' → env = env'

section Converge

variable {id : SettlementId} {batch D P : List EventEnvelope} {start final : SettlementContext}
  {s : Store} {rows : Rows}

/-- What the journal shows of a batch, the batch shows. -/
theorem Shown.of_journal {kind : EvidenceRef → SettlementEvent}
    (shown : Shown (fun env => env ∈ batch ∧ rows.Has env) kind) : Shown (· ∈ batch) kind := by
  obtain ⟨env, reference, ⟨mem, -⟩, event⟩ := shown
  exact ⟨env, reference, mem, event⟩

namespace Delivered

variable (delivered : Delivered id batch start D P s rows)
include delivered

/-- A delivered claim has brought the settlement out of `Settling`, if its evidence is delivered
too. -/
theorem not_settling (all : ∀ env ∈ batch, env ∈ D)
    (verified : start.claimEvidenceVerified = true ∨ Shown (· ∈ batch) .claimEvidenceVerified)
    (claimed : Shown (· ∈ batch) .claimConfirmed) : rows.context.state ≠ .settling := by
  intro state
  have phase := delivered.standing.shows.phase
  rw [state] at phase
  obtain ⟨env, reference, mem, event⟩ := claimed
  have raised : rows.context.claimEvidenceVerified = true := by
    refine delivered.standing.shows.verified.mpr (verified.imp_right ?_)
    rintro ⟨other, reference', other_mem, event'⟩
    exact ⟨other, reference', ⟨other_mem, delivered.has_verified (all other other_mem) event' state⟩,
      event'⟩
  have has := delivered.has (all env mem) (by rw [state]; rfl) (not_waits_of_react (by
    rw [event]
    exact ⟨_, react_claimConfirmed.mpr ⟨state, raised, rfl⟩⟩))
  exact phase.2.2 ⟨env, reference, ⟨mem, has⟩, event⟩

variable (all : ∀ env ∈ batch, env ∈ D) (shows : Shows start (· ∈ batch) final)
include all shows

/-- **Quiescence decides the state.** -/
theorem state_eq : rows.context.state = final.state := by
  have phase := delivered.standing.shows.phase
  have target := shows.phase
  -- a batch that shows an observation, a confirmation or a claim has left the state before it
  have observed : Shown (· ∈ batch) .fundingObserved → rows.context.state ≠ .readyToFund :=
    fun ⟨_, _, mem, event⟩ => delivered.not_ready mem (all _ mem) event
  have confirmed : Shown (· ∈ batch) .fundingConfirmed → rows.context.state ≠ .confirming :=
    fun ⟨_, _, mem, event⟩ => delivered.not_confirming mem (all _ mem) event
  have claimed : final.state = .settled → Shown (· ∈ batch) .claimConfirmed →
      rows.context.state ≠ .settling :=
    fun settled => delivered.not_settling all (shows.verified.mp (shows.settled settled))
  have empty : (∀ env, env ∉ batch) → ∀ kind, ¬ Shown (· ∈ batch) kind :=
    fun none kind ⟨env, _, mem, _⟩ => none env mem
  cases current : rows.context.state <;> rw [current] at phase
  case preparing => exact phase.elim
  case refunded => exact phase.elim
  case readyToFund =>
    cases last : final.state <;> rw [last] at target
    all_goals first | exact target.elim | exact absurd current (observed target.1)
  case confirming =>
    cases last : final.state <;> rw [last] at target
    case readyToFund => exact absurd phase.1.of_journal (empty target _)
    all_goals first | exact target.elim | exact absurd current (confirmed target.2.1)
  case settling =>
    cases last : final.state <;> rw [last] at target
    case readyToFund => exact absurd phase.1.of_journal (empty target _)
    case confirming => exact absurd phase.2.1.of_journal (not_shown_of_observed target.2 (by simp))
    case settled => exact absurd current (claimed last target.2.2)
    all_goals exact target.elim
  case settled =>
    cases last : final.state <;> rw [last] at target
    case readyToFund => exact absurd phase.1.of_journal (empty target _)
    case confirming => exact absurd phase.2.1.of_journal (not_shown_of_observed target.2 (by simp))
    case settling => exact absurd phase.2.2.of_journal target.2.2
    all_goals exact target.elim

/-- Quiescence decides the context, if the observations are at one height. -/
theorem projection_eq {height : UInt64} (script : Script batch height) :
    rows.context.projection = final.projection := by
  have present := delivered.standing.shows
  have state := delivered.state_eq all shows
  have phase := present.phase
  have target := shows.phase
  have verified : rows.context.claimEvidenceVerified = final.claimEvidenceVerified := by
    rw [Bool.eq_iff_iff, shows.verified]
    refine ⟨fun h => (present.verified.mp h).imp_right Shown.of_journal, ?_⟩
    rintro (raised | ⟨env, reference, mem, event⟩)
    · exact present.verified.mpr (.inl raised)
    · cases current : rows.context.state <;> rw [current] at phase <;>
        rw [← state, current] at target
      case settled => exact present.settled current
      case settling =>
        exact present.verified.mpr (.inr ⟨env, reference,
          ⟨mem, delivered.has_verified (all env mem) event current⟩, event⟩)
      case readyToFund => exact absurd mem (target env)
      case confirming =>
        exact absurd ⟨env, reference, mem, event⟩ (not_shown_of_observed target.2 (by simp))
      all_goals exact phase.elim
  have heights : rows.context.lastObservedHeight = final.lastObservedHeight := by
    rcases shows.height with ⟨env, reference, mem, event, level⟩ | ⟨level, unseen⟩
    · have left : Shown (fun env => env ∈ batch ∧ rows.Has env) .fundingObserved := by
        have := delivered.not_ready mem (all env mem) event
        cases current : rows.context.state <;> rw [current] at phase
        case readyToFund => exact absurd current this
        all_goals first | exact phase.elim | exact phase.1
      obtain ⟨env', reference', ⟨mem', -⟩, event', level'⟩ := present.observed left
      rw [level, level', script.level env mem reference (.inl event),
        script.level env' mem' reference' (.inl event')]
    · rcases present.height with ⟨env', reference', ⟨mem', -⟩, event', -⟩ | ⟨level', -⟩
      · exact absurd ⟨env', reference', mem', event'⟩ unseen
      · rw [level, level']
  simp only [SettlementContext.projection, state, verified, heights, present.armed, shows.armed]

/-- Quiescence empties the buffer, if funding is observed once. -/
theorem buffer_empty (scripted : ∀ env ∈ batch, Scripted env.event) (once : ObservedOnce batch) :
    P = [] := by
  have phase := delivered.standing.shows.phase
  have target := shows.phase
  rw [← delivered.state_eq all shows] at target
  refine List.eq_nil_iff_forall_not_mem.mpr fun env parked => ?_
  obtain ⟨mem, given, absent⟩ := delivered.parked env parked
  have waits := delivered.waits env parked
  cases current : rows.context.state <;> rw [current] at phase target
  case readyToFund => exact target env mem
  case confirming =>
    obtain ⟨reference, event⟩ := target.2 env mem
    refine not_waits_of_react ?_ waits
    rw [event]
    exact ⟨_, react_fundingObserved.mpr ⟨.inr current, rfl⟩⟩
  case settling =>
    have kind := scripted env mem
    generalize event : env.event = e at kind
    cases kind with
    | observed reference =>
      obtain ⟨env', reference', ⟨mem', has⟩, event'⟩ := phase.1
      rw [once target.2.1 target.2.2 env mem env' mem' reference reference' event event'] at absent
      exact absent has
    | confirmed reference =>
      obtain ⟨env', reference', ⟨mem', has⟩, event'⟩ := phase.2.1
      rw [shows.single env env' reference reference' mem mem' event event'] at absent
      exact absent has
    | verified reference => exact absent (delivered.has_verified given event current)
    | claimed reference => exact target.2.2 ⟨env, reference, mem, event⟩
  case settled =>
    have live := waits.react.1
    rw [current] at live
    cases live
  all_goals exact phase.elim

end Delivered

end Converge

end DomProtocol.Settlement
