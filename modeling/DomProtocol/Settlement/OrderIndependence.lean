import DomProtocol.Settlement.Reorder
import DomProtocol.Settlement.ClaimEvidence

/-! # Order independence of ingestion (`kaystra-core`, `ingest.rs`)

A batch of evidence that the machine accepts one by one **`Converges`** if every order of delivery
ends without an error, with nothing parked and in the same context up to its revision. A
confirmation at another height than the last observation is refused for good, and an observation
after the confirmation stays parked. So a batch converges exactly if it is **`OrderFree`**
(**`ingestion_order_independent_iff`**). -/

namespace DomProtocol.Settlement

section Order

variable [Digests]

variable {delivery : EventEnvelope × Option CursorUpdate} {s : Store}

/-! ## Deliveries in an accepted order -/

/-- The counters have room for the envelopes, and their heights fit the columns. -/
structure Room (rows : Rows) (envs : List EventEnvelope) : Prop where
  revisions : rows.revision.toNat + envs.length < 2 ^ 63
  sequences : rows.lastEventSeq.toNat + envs.length < 2 ^ 63
  heights : ∀ env ∈ envs, ∀ reference, acceptedEvidence env.event = some reference →
    reference.blockHeight.toNat < 2 ^ 63

/-- A commit with nothing parked. -/
theorem runs_deliverOne_committed {s' : Store} {revision : UInt64}
    (run : Runs (ingestEvent delivery.1 delivery.2)
      ([] : ReorderBuffer) s (.ok (.committed revision)) [] s') :
    Runs (deliverOne delivery) [] s (.ok ()) [] s' := by
  have drained : Runs drainParked [] s' (.ok ()) [] s' :=
    (Act.runs_get _ _).bind (Act.runs_pure _ _ _)
  exact runs_deliverOne (run.bind (drained.bind (Act.runs_pure _ _ _)))

/-- An error of a delivery. -/
theorem runs_deliverOne_error {e : IngestError} (run : Runs (ingestEvent delivery.1 delivery.2)
      ([] : ReorderBuffer) s (.error e) [] s) :
    Runs (deliverOne delivery) [] s (.error e) [] s := by
  have whole : Runs (ReorderBuffer.ingest delivery.1 delivery.2) [] s
      (.error e) [] s := run.bind_error
  exact whole.bind_error

/-- **Deliveries in an order the machine accepts** are committed one by one, if there is room;
otherwise the store refuses one. -/
theorem Desk.deliverAll [LawfulDigests] {id : SettlementId} {batch : List EventEnvelope}
    {rows : Rows} {final : SettlementContext} (desk : Desk id batch s rows)
    (deliveries : List (EventEnvelope × Option CursorUpdate))
    (scripted : ∀ env ∈ batch, Scripted env.event)
    (distinct : ∀ env ∈ batch, ∀ other ∈ batch, other.eventId = env.eventId → other = env)
    (members : ∀ env ∈ deliveries.map Prod.fst, env ∈ batch ∧ ¬ rows.Has env)
    (nodup : (deliveries.map Prod.fst).Nodup)
    (accepted : acceptAll rows.context (deliveries.map Prod.fst) = .ok final)
    (revision : rows.revision.toNat < 2 ^ 63) (sequence : rows.lastEventSeq.toNat < 2 ^ 63) :
    (Room rows (deliveries.map Prod.fst) ∧ ∃ s' rows', Runs
        (Settlement.deliverAll deliveries) [] s (.ok ()) [] s' ∧ Desk id batch s' rows' ∧
        rows'.context = final) ∨
      (¬ Room rows (deliveries.map Prod.fst) ∧ ∃ e s', Runs
        (Settlement.deliverAll deliveries) [] s (.error e) [] s') := by
  induction deliveries generalizing s rows with
  | nil =>
    cases accepted
    exact .inl ⟨⟨revision, sequence, by simp⟩, s, rows, Act.runs_pure _ _ _, desk, rfl⟩
  | cons delivery rest ih =>
    rw [List.map_cons] at members nodup accepted ⊢
    obtain ⟨⟨mem, fresh⟩, others⟩ := List.forall_mem_cons.mp members
    obtain ⟨new, nodup⟩ := List.nodup_cons.mp nodup
    obtain ⟨t, first, later⟩ := acceptAll_cons.mp accepted
    obtain ⟨reference, carries⟩ := (scripted delivery.1 mem).carries
    rcases desk.commit (c := delivery.2) (m := ([] : ReorderBuffer)) mem fresh first
      ((scripted delivery.1 mem).length_effects first) carries (distinct delivery.1 mem) with
      ⟨fits, s₁, rows₁, run, desk₁, ingested⟩ | ⟨overflow, e, run⟩
    · have has := ingested.has_iff
      obtain ⟨u, step, context, seq, rev⟩ := ingested.of_committed
      cases first.symm.trans step
      have members₁ : ∀ env ∈ rest.map Prod.fst, env ∈ batch ∧ ¬ rows₁.Has env := by
        intro env env_mem
        refine ⟨(others env env_mem).1, fun h => ?_⟩
        rcases (has env).mp h with h | ⟨-, same⟩
        · exact (others env env_mem).2 h
        · rw [distinct delivery.1 mem env (others env env_mem).1 same] at env_mem
          exact new env_mem
      have committed := runs_deliverOne_committed run
      have fitsRev := fits.revision
      have fitsSeq := fits.seq
      -- there is room for all iff the first fits and there is room for the rest
      have room_iff : Room rows (delivery.1 :: rest.map Prod.fst) ↔
          Room rows₁ (rest.map Prod.fst) := by
        constructor
        · rintro ⟨h₁, h₂, h₃⟩
          rw [List.length_cons] at h₁ h₂
          exact ⟨by omega, by omega, (List.forall_mem_cons.mp h₃).2⟩
        · rintro ⟨h₁, h₂, h₃⟩
          exact ⟨by rw [List.length_cons]; omega, by rw [List.length_cons]; omega,
            List.forall_mem_cons.mpr ⟨fits.height, h₃⟩⟩
      rw [room_iff]
      rcases ih desk₁ members₁ nodup (context ▸ later) (by omega) (by omega) with
        ⟨room, s', rows', done, desk', final_eq⟩ | ⟨full, e, s', failed⟩
      · exact .inl ⟨room, s', rows', committed.bind done, desk', final_eq⟩
      · exact .inr ⟨full, e, s', committed.bind failed⟩
    · refine .inr ⟨fun room => overflow ?_, e, s, (runs_deliverOne_error run).bind_error⟩
      obtain ⟨h₁, h₂, h₃⟩ := room
      rw [List.length_cons] at h₁ h₂
      exact ⟨by omega, by omega, (List.forall_mem_cons.mp h₃).1⟩

/-! ## The condition -/

/-- **An open settlement and new evidence**: the settlement is ready to fund, and the envelopes of
the batch are distinct and not journalled yet. -/
structure Opened (id : SettlementId) (batch : List EventEnvelope) (s : Store) (rows : Rows) :
    Prop where
  desk : Desk id batch s rows
  state : rows.context.state = .readyToFund
  scripted : ∀ env ∈ batch, Scripted env.event
  nodup : batch.Nodup
  distinct : ∀ env ∈ batch, ∀ other ∈ batch, other.eventId = env.eventId → other = env
  new : ∀ env ∈ batch, ¬ rows.Has env
  revision : rows.revision.toNat < 2 ^ 63
  sequence : rows.lastEventSeq.toNat < 2 ^ 63

/-- **Every order converges**: no error, nothing parked, and the context `final` up to its
revision. -/
def Converges (id : SettlementId) (batch : List EventEnvelope) (s : Store)
    (final : SettlementContext) : Prop :=
  ∀ deliveries : List (EventEnvelope × Option CursorUpdate), (deliveries.map Prod.fst).Perm batch →
    ∃ s' rows', Runs (deliverAll deliveries) [] s (.ok ()) [] s' ∧
      s'.settlement id = some rows' ∧ rows'.context.projection = final.projection

/-- **What makes a batch independent of its order**: all observations of the funding are at one
height, the funding is observed once if it is confirmed without a claim, and every number fits its
column. -/
structure OrderFree (rows : Rows) (batch : List EventEnvelope) : Prop where
  level : ∀ env ∈ batch, ∀ env' ∈ batch, ∀ reference reference',
    env.event = .fundingObserved reference → env'.event = .fundingObserved reference' →
      reference.blockHeight = reference'.blockHeight
  once : ObservedOnce batch
  room : Room rows batch

section Condition

variable {id : SettlementId} {batch : List EventEnvelope} {s : Store} {rows : Rows}
  {final : SettlementContext}

variable {env : EventEnvelope} {reference : EvidenceRef}

section

variable (opened : Opened id batch s rows)
include opened

theorem Opened.shows (accepted : acceptAll rows.context batch = .ok final) :
    Shows rows.context (· ∈ batch) final :=
  ((Shows.ready opened.state).acceptAll opened.scripted accepted).congr fun env => by simp

/-- Observations at one height make a script. -/
theorem Opened.script (accepted : acceptAll rows.context batch = .ok final) (room : Room rows batch)
    (level : ∀ env ∈ batch, ∀ env' ∈ batch, ∀ reference reference',
      env.event = .fundingObserved reference → env'.event = .fundingObserved reference' →
        reference.blockHeight = reference'.blockHeight) : ∃ height, Script batch height := by
  have shows := opened.shows accepted
  by_cases observed : Shown (· ∈ batch) .fundingObserved
  · -- the confirmation is at the height of the last observation
    obtain ⟨last, seen, mem, event, atHeight⟩ := shows.observed observed
    refine ⟨seen.blockHeight, opened.scripted, opened.distinct, ?_, room.heights⟩
    rintro env env_mem reference (event' | event')
    · exact level env env_mem last mem reference seen event' event
    · have := shows.confirmed env reference env_mem event'
      rw [atHeight, Option.some.injEq] at this
      exact this.symm
  · have phase := shows.phase
    have empty : ∀ env, env ∉ batch := by
      cases state : final.state <;> rw [state] at phase
      case readyToFund => exact phase
      all_goals first | exact phase.elim | exact absurd phase.1 observed
    exact ⟨0, opened.scripted, opened.distinct, fun env mem => absurd mem (empty env), room.heights⟩

/-- Nothing was delivered yet. -/
theorem Opened.delivered (room : Room rows batch) :
    Delivered id batch rows.context [] [] s rows := by
  have few : rows.missing batch ≤ batch.length := List.length_filter_le _ _
  have revisions := room.revisions
  have sequences := room.sequences
  refine ⟨⟨opened.desk, ?_, by omega, by omega⟩, List.nodup_nil, by simp, by simp, by simp,
    fun env mem has => absurd has (opened.new env mem)⟩
  refine (Shows.ready opened.state).congr fun env => ?_
  exact ⟨False.elim, fun ⟨mem, has⟩ => opened.new env mem has⟩

end

variable [LawfulDigests]

/-- **The condition is enough.** -/
theorem Opened.converges (opened : Opened id batch s rows)
    (accepted : acceptAll rows.context batch = .ok final) (free : OrderFree rows batch) :
    Converges id batch s final := by
  intro deliveries perm
  obtain ⟨height, script⟩ := opened.script accepted free.room free.level
  obtain ⟨D, P, s', rows', run, delivered, mem_iff⟩ :=
    (opened.delivered free.room).deliverAll script deliveries
      (fun env mem => ⟨perm.mem_iff.mp mem, List.not_mem_nil⟩) (perm.nodup_iff.mpr opened.nodup)
  have all : ∀ env ∈ batch, env ∈ D := fun env mem => (mem_iff env).mpr (.inr (perm.mem_iff.mpr mem))
  have shows := opened.shows accepted
  rw [delivered.buffer_empty all shows opened.scripted free.once] at run
  exact ⟨s', rows', run, delivered.standing.desk.found, delivered.projection_eq all shows script⟩

/-- Deliveries without cursor updates. -/
def plain (envs : List EventEnvelope) : List (EventEnvelope × Option CursorUpdate) :=
  envs.map fun env => (env, none)

omit [LawfulDigests] in
@[simp] theorem map_fst_plain (envs : List EventEnvelope) : (plain envs).map Prod.fst = envs := by
  simp [plain, Function.comp_def]

section

variable (opened : Opened id batch s rows)
include opened

/-- An order that the machine accepts is delivered without an error only if there is room. -/
theorem Opened.room (accepted : acceptAll rows.context batch = .ok final)
    (converges : Converges id batch s final) :
    Room rows batch := by
  have members : ∀ env ∈ (plain batch).map Prod.fst, env ∈ batch ∧ ¬ rows.Has env := by
    rw [map_fst_plain]
    exact fun env mem => ⟨mem, opened.new env mem⟩
  have run := opened.desk.deliverAll (plain batch) opened.scripted opened.distinct members
    (by rw [map_fst_plain]; exact opened.nodup) (by rw [map_fst_plain]; exact accepted)
    opened.revision opened.sequence
  rw [map_fst_plain] at run
  rcases run with ⟨room, -⟩ | ⟨-, e, s', failed⟩
  · exact room
  · obtain ⟨_, _, done, -⟩ := converges (plain batch) (by rw [map_fst_plain])
    cases (failed.unique done).1

omit [LawfulDigests] in
/-- An observation is accepted first. -/
theorem Opened.observe (room : Room rows batch) (mem : env ∈ batch)
    (event : env.event = .fundingObserved reference) :
    ∃ t, transition rows.context env.event = .ok t ∧ t.next.state = .confirming ∧
      t.next.lastObservedHeight = some reference.blockHeight := by
  have positive := List.length_pos_of_mem mem
  have fits := room.revisions
  rw [opened.desk.revision] at fits
  rw [event]
  exact exists_observed reference (.inl opened.state) (by omega)

/-- **An observation before the confirmation** must be at its height: otherwise the confirmation is
refused if it comes second. -/
theorem Opened.level_of_confirmed (accepted : acceptAll rows.context batch = .ok final)
    (converges : Converges id batch s final)
    (room : Room rows batch) {confirmed : EventEnvelope} {depth : EvidenceRef}
    (mem : env ∈ batch) (event : env.event = .fundingObserved reference)
    (confirmed_mem : confirmed ∈ batch) (confirms : confirmed.event = .fundingConfirmed depth) :
    final.lastObservedHeight = some reference.blockHeight := by
  rw [(opened.shows accepted).confirmed confirmed depth confirmed_mem confirms]
  by_contra differs
  have other : confirmed ≠ env := by
    rintro rfl
    rw [event] at confirms
    cases confirms
  obtain ⟨t, first, state, height⟩ := opened.observe room mem event
  have positive := List.length_pos_of_mem mem
  have revisions := room.revisions
  have sequences := room.sequences
  rcases opened.desk.commit (c := none) (m := ([] : ReorderBuffer)) mem (opened.new env mem) first
    ((opened.scripted env mem).length_effects first) (by rw [event]; rfl) (opened.distinct env mem)
    with ⟨-, s₁, rows₁, run, desk₁, ingested⟩ | ⟨overflow, -⟩
  · obtain ⟨u, step, context, -, revision⟩ := ingested.of_committed
    cases first.symm.trans step
    have fresh : ¬ rows₁.Has confirmed := by
      rw [ingested.has_iff]
      rintro (has | ⟨-, same⟩)
      · exact opened.new confirmed confirmed_mem has
      · exact other (opened.distinct env mem confirmed confirmed_mem same)
    have live : rows₁.context.state.isTerminal = false := by
      rw [context, state]
      rfl
    have refused : transition rows₁.context confirmed.event = .error .evidenceMismatch := by
      rw [transition_eq_error live (by rw [← desk₁.revision]; omega), confirms, react, context, state,
        height]
      exact if_pos (Ne.symm differs)
    have failed := desk₁.refuse (c := none) (m := ([] : ReorderBuffer)) confirmed_mem fresh live
      refused ⟨by simp, by simp⟩
    -- the order that starts with the two of them
    have perm : ((plain (env :: confirmed :: (batch.erase env).erase confirmed)).map Prod.fst).Perm
        batch := by
      rw [map_fst_plain]
      exact ((List.perm_cons_erase mem).trans ((List.perm_cons_erase
        ((List.mem_erase_of_ne other).mpr confirmed_mem)).cons env)).symm
    obtain ⟨_, _, done, -⟩ := converges _ perm
    have whole : Runs
        (deliverAll (plain (env :: confirmed :: (batch.erase env).erase confirmed))) [] s
        (.error (.machine .evidenceMismatch)) [] s₁ :=
      (runs_deliverOne_committed run).bind (runs_deliverOne_error failed).bind_error
    cases (whole.unique done).1
  · exact overflow ⟨by omega, by omega, room.heights env mem⟩

/-- **Without a confirmation**, the observation that comes last decides the height. -/
theorem Opened.level_of_unconfirmed (accepted : acceptAll rows.context batch = .ok final)
    (converges : Converges id batch s final)
    (room : Room rows batch) (mem : env ∈ batch)
    (event : env.event = .fundingObserved reference)
    (unconfirmed : ¬ Shown (· ∈ batch) .fundingConfirmed) :
    final.lastObservedHeight = some reference.blockHeight := by
  have phase := (opened.shows accepted).phase
  have observations : ∀ e ∈ batch, ∃ reference, e.event = .fundingObserved reference := by
    cases state : final.state <;> rw [state] at phase
    case readyToFund => exact absurd mem (phase env)
    case confirming => exact phase.2
    all_goals first | exact phase.elim | exact absurd phase.2.1 unconfirmed
  have perm : (batch.erase env ++ [env]).Perm batch :=
    (List.perm_append_singleton env _).trans (List.perm_cons_erase mem).symm
  have fits := room.revisions
  rw [opened.desk.revision, ← perm.length_eq, List.length_append] at fits
  have others : ∀ e ∈ batch.erase env, ∃ reference, e.event = .fundingObserved reference :=
    fun e e_mem => observations e (List.mem_of_mem_erase e_mem)
  obtain ⟨middle, before, state, revision⟩ :=
    acceptAll_observations (.inl opened.state) others (by omega)
  obtain ⟨last, order, height⟩ : ∃ last, acceptAll rows.context (batch.erase env ++ [env]) = .ok last ∧
      last.lastObservedHeight = some reference.blockHeight := by
    rw [List.length_singleton] at fits
    obtain ⟨t, step, -, height⟩ := exists_observed reference state (by omega)
    rw [← event] at step
    exact ⟨t.next, (acceptAll_append before).trans (acceptAll_cons.mpr ⟨t, step, rfl⟩), height⟩
  have members : ∀ e ∈ (plain (batch.erase env ++ [env])).map Prod.fst, e ∈ batch ∧ ¬ rows.Has e := by
    rw [map_fst_plain]
    intro e e_mem
    have := perm.mem_iff.mp e_mem
    exact ⟨this, opened.new e this⟩
  have same_room : Room rows (batch.erase env ++ [env]) := by
    refine ⟨?_, ?_, fun e e_mem => room.heights e (perm.mem_iff.mp e_mem)⟩
    · rw [perm.length_eq]
      exact room.revisions
    · rw [perm.length_eq]
      exact room.sequences
  have run := opened.desk.deliverAll (plain (batch.erase env ++ [env])) opened.scripted opened.distinct
    members (by rw [map_fst_plain]; exact perm.nodup_iff.mpr opened.nodup)
    (by rw [map_fst_plain]; exact order) opened.revision opened.sequence
  rw [map_fst_plain] at run
  obtain ⟨s', rows', done, found, projection⟩ :=
    converges (plain (batch.erase env ++ [env])) (by rw [map_fst_plain]; exact perm)
  rcases run with ⟨-, s₁, rows₁, run, desk₁, context⟩ | ⟨full, -⟩
  · obtain ⟨-, -, rfl⟩ := run.unique done
    cases desk₁.found.symm.trans found
    rw [context] at projection
    simp only [SettlementContext.projection, Prod.mk.injEq] at projection
    rw [← projection.2.1, height]
  · exact absurd same_room full

/-- **A second observation after the confirmation** stays parked. -/
theorem Opened.once (converges : Converges id batch s final)
    (room : Room rows batch) {height : UInt64} (script : Script batch height) :
    ObservedOnce batch := by
  intro confirmed unclaimed env mem env' mem' reference reference' event event'
  by_contra differs
  obtain ⟨final_env, depth, confirmed_mem, confirms⟩ := confirmed
  have other : final_env ≠ env := by
    rintro rfl
    rw [event] at confirms
    cases confirms
  -- everything but the one observation is delivered
  have members : ∀ e ∈ (plain (batch.erase env)).map Prod.fst,
      e ∈ batch ∧ e ∉ ([] : List EventEnvelope) := by
    rw [map_fst_plain]
    exact fun e e_mem => ⟨List.mem_of_mem_erase e_mem, List.not_mem_nil⟩
  obtain ⟨D, P, s₁, rows₁, run, delivered, mem_iff⟩ :=
    (opened.delivered room).deliverAll script (plain (batch.erase env)) members
      (by rw [map_fst_plain]; exact opened.nodup.erase env)
  simp only [List.not_mem_nil, false_or, map_fst_plain] at mem_iff
  have given : ∀ e ∈ batch, e ≠ env → e ∈ D := fun e e_mem ne =>
    (mem_iff e).mpr ((List.mem_erase_of_ne ne).mpr e_mem)
  have absent : env ∉ D := fun h => by
    rw [mem_iff] at h
    exact opened.nodup.not_mem_erase h
  have phase := delivered.standing.shows.phase
  have state : rows₁.context.state = .settling := by
    cases current : rows₁.context.state <;> rw [current] at phase
    case readyToFund =>
      exact absurd current (delivered.not_ready mem' (given env' mem' (Ne.symm differs)) event')
    case confirming =>
      exact absurd current (delivered.not_confirming confirmed_mem
        (given final_env confirmed_mem other) confirms)
    case settled => exact absurd phase.2.2.of_journal unclaimed
    all_goals exact phase.elim
  obtain ⟨result, s₂, rows₂, last, -, ingested⟩ :=
    delivered.standing.ingest (c := none) (m := P) script mem fun has =>
      absent (delivered.only env mem has)
  have perm : ((plain (batch.erase env ++ [env])).map Prod.fst).Perm batch := by
    rw [map_fst_plain]
    exact (List.perm_append_singleton env _).trans (List.perm_cons_erase mem).symm
  obtain ⟨s', rows', done, -⟩ := converges _ perm
  cases ingested with
  | late terminal context journal seq revision =>
    rw [state] at terminal
    cases terminal
  | committed accepted context journal seq revision =>
    obtain ⟨-, -, u, reacted, -⟩ := transition_eq_ok.mp accepted
    rw [event] at reacted
    rcases (react_fundingObserved.mp reacted).1 with h | h <;> rw [state] at h <;> cases h
  | parked waits context journal seq revision =>
    have parks : Runs (deliverAll (plain [env])) P s₁ (.ok ())
        (ReorderBuffer.park env P) s₂ := by
      have parked : Runs (ReorderBuffer.ingest env none) P s₁
          (.ok .parkedForReorder) (ReorderBuffer.park env P) s₂ :=
        last.bind ((Act.runs_modify _ _ _).bind (Act.runs_pure _ _ _))
      exact Act.Runs.bind (runs_deliverOne parked) (Act.runs_pure _ _ _)
    have whole := run.forEach_append parks
    rw [show plain (batch.erase env) ++ plain [env] = plain (batch.erase env ++ [env]) by
      simp [plain]] at whole
    have empty := (Act.Runs.unique done whole).2.1
    have kept : env ∈ ReorderBuffer.park env P := by
      unfold ReorderBuffer.park
      split
      · assumption
      · exact ReorderBuffer.mem_sort.mpr (List.mem_append_right P (List.mem_singleton_self env))
    rw [← empty] at kept
    cases kept

end

/-- **Order independence of ingestion**: a batch of evidence that the machine accepts one by one
converges in every order of delivery exactly if it is free of order. -/
theorem ingestion_order_independent_iff (opened : Opened id batch s rows)
    (accepted : acceptAll rows.context batch = .ok final) :
    Converges id batch s final ↔ OrderFree rows batch := by
  refine ⟨fun converges => ?_, opened.converges accepted⟩
  have room := opened.room accepted converges
  have heights : ∀ env ∈ batch, ∀ reference, env.event = .fundingObserved reference →
      final.lastObservedHeight = some reference.blockHeight := by
    intro env mem reference event
    by_cases confirmed : Shown (· ∈ batch) .fundingConfirmed
    · obtain ⟨other, depth, other_mem, confirms⟩ := confirmed
      exact opened.level_of_confirmed accepted converges room mem event other_mem confirms
    · exact opened.level_of_unconfirmed accepted converges room mem event confirmed
  have level : ∀ env ∈ batch, ∀ env' ∈ batch, ∀ reference reference',
      env.event = .fundingObserved reference → env'.event = .fundingObserved reference' →
        reference.blockHeight = reference'.blockHeight := by
    intro env mem env' mem' reference reference' event event'
    exact Option.some.inj ((heights env mem reference event).symm.trans
      (heights env' mem' reference' event'))
  obtain ⟨height, script⟩ := opened.script accepted room level
  exact ⟨level, opened.once converges room script, room⟩

end Condition

end Order

section Example

attribute [local instance] freeDigests freeDigests_lawful

/-- A settlement whose refund is armed. -/
def fundableStore : Store := exampleIngested (exampleStore [1]) [exampleEnvelope 1 .refundArmed]

/-- The rows of the settlement. -/
def fundableRows : Rows where
  terms := exampleTerms 1
  termsHash := 0
  revision := 1
  state := .readyToFund
  context := ⟨.readyToFund, 1, none, false, true⟩
  lastEventSeq := 1
  journal := [⟨1, 0, 1, deriveEventId 1 .refundArmed, exampleEnvelope 1 .refundArmed,
    contextHash ⟨.readyToFund, 1, none, false, true⟩⟩]
  evidence := []
  cursors := fun _ => none
  terminal := none
  late := []

/-- Evidence for the settlement. -/
def fundableBatch (events : List SettlementEvent) : List EventEnvelope :=
  events.map (exampleEnvelope 1)

theorem opened_fundable {events : List SettlementEvent} (scripted : ∀ event ∈ events, Scripted event)
    (nodup : events.Nodup) : Opened 1 (fundableBatch events) fundableStore fundableRows := by
  have injective : ∀ a b, (exampleEnvelope 1 a).eventId = (exampleEnvelope 1 b).eventId → a = b :=
    fun a b same => (LawfulDigests.deriveEventId_inj same).2
  have other : ∀ event ∈ events, event ≠ .refundArmed := by
    rintro event mem rfl
    cases scripted _ mem
  have found : fundableStore.settlement 1 = some fundableRows := rfl
  have outbox : fundableStore.outbox.map OutboxRow.effectId =
      [deriveEffectId 1 (deriveEventId 1 .refundArmed) .authorizeFunding] := rfl
  have member : ∀ env ∈ fundableBatch events, ∃ event ∈ events, exampleEnvelope 1 event = env :=
    fun env mem => List.mem_map.mp mem
  refine ⟨⟨found, rfl, rfl, ?_, ?_, fun _ _ _ row_mem => (by cases row_mem), ?_, fun _ => rfl⟩, rfl,
    ?_, ?_, ?_, ?_, by decide, by decide⟩
  · intro env mem
    obtain ⟨event, -, rfl⟩ := member env mem
    exact ⟨rfl, rfl, rfl, rfl⟩
  · intro row mem
    rw [List.mem_singleton.mp mem]
    exact le_rfl
  · intro env mem _ row row_mem effect same
    obtain ⟨event, event_mem, rfl⟩ := member env mem
    have effect_mem := List.mem_map_of_mem (f := OutboxRow.effectId) row_mem
    rw [outbox, List.mem_singleton] at effect_mem
    have source := (LawfulDigests.deriveEffectId_inj (same.symm.trans effect_mem)).2.1
    exact other event event_mem (LawfulDigests.deriveEventId_inj source).2
  · intro env mem
    obtain ⟨event, event_mem, rfl⟩ := member env mem
    exact scripted event event_mem
  · exact nodup.map fun a b same => injective a b (congrArg EventEnvelope.eventId same)
  · intro env mem env' mem' same
    obtain ⟨event, -, rfl⟩ := member env mem
    obtain ⟨event', -, rfl⟩ := member env' mem'
    rw [injective event' event same]
  · intro env mem has
    obtain ⟨event, event_mem, rfl⟩ := member env mem
    refine has (List.find?_eq_none.mpr fun row row_mem same => ?_)
    rw [List.mem_singleton.mp row_mem, decide_eq_true_eq] at same
    exact other event event_mem (LawfulDigests.deriveEventId_inj same).2.symm

/-- Funding at height 10 and the claim at heights 11 and 12. -/
def claimScript : List SettlementEvent :=
  [.fundingObserved (evidenceAt 10), .fundingConfirmed (evidenceAt 10),
    .claimEvidenceVerified (evidenceAt 11), .claimConfirmed (evidenceAt 12)]

/-- The claim script converges in every order. -/
theorem claimScript_order_independent :
    Converges 1 (fundableBatch claimScript) fundableStore ⟨.settled, 5, some 10, true, true⟩ := by
  have scripted : ∀ event ∈ claimScript, Scripted event := by
    intro event mem
    simp only [claimScript, List.mem_cons, List.not_mem_nil, or_false] at mem
    rcases mem with rfl | rfl | rfl | rfl <;> constructor
  have observed : ∀ env ∈ fundableBatch claimScript, ∀ reference, env.event = .fundingObserved reference →
      env = exampleEnvelope 1 (.fundingObserved (evidenceAt 10)) ∧ reference = evidenceAt 10 := by
    intro env mem reference event
    obtain ⟨e, e_mem, rfl⟩ := List.mem_map.mp mem
    obtain rfl : e = .fundingObserved reference := event
    simp [claimScript] at e_mem
    exact ⟨by rw [e_mem], e_mem⟩
  refine (ingestion_order_independent_iff (opened_fundable scripted (by decide)) rfl).mpr
    ⟨?_, ?_, by decide, by decide, ?_⟩
  · intro env mem env' mem' reference reference' event event'
    rw [(observed env mem reference event).2, (observed env' mem' reference' event').2]
  · intro _ _ env mem env' mem' reference reference' event event'
    rw [(observed env mem reference event).1, (observed env' mem' reference' event').1]
  · intro env mem reference carries
    obtain ⟨e, e_mem, rfl⟩ := List.mem_map.mp mem
    simp only [claimScript, List.mem_cons, List.not_mem_nil, or_false] at e_mem
    rcases e_mem with rfl | rfl | rfl | rfl <;> cases carries <;> decide

/-- The funding is observed at height 10 and again at height 12, where it is confirmed. -/
def movedFunding : List SettlementEvent :=
  [.fundingObserved (evidenceAt 10), .fundingObserved (evidenceAt 12),
    .fundingConfirmed (evidenceAt 12)]

/-- **The order of delivery matters**: the machine accepts the batch in canonical chain order, but if
the confirmation comes before the second observation it is refused. -/
theorem movedFunding_order_dependent :
    ReorderBuffer.sort (fundableBatch movedFunding) = fundableBatch movedFunding ∧
      acceptAll fundableRows.context (fundableBatch movedFunding) =
        .ok ⟨.settling, 4, some 12, false, true⟩ ∧
      Opened 1 (fundableBatch movedFunding) fundableStore fundableRows ∧
      ¬ Converges 1 (fundableBatch movedFunding) fundableStore ⟨.settling, 4, some 12, false, true⟩ := by
  have scripted : ∀ event ∈ movedFunding, Scripted event := by
    intro event mem
    simp only [movedFunding, List.mem_cons, List.not_mem_nil, or_false] at mem
    rcases mem with rfl | rfl | rfl <;> constructor
  have opened := opened_fundable scripted (by decide)
  refine ⟨by decide +kernel, rfl, opened, fun converges => ?_⟩
  have height := opened.level_of_confirmed rfl converges (opened.room rfl converges)
    (List.mem_cons_self ..) rfl (List.mem_cons_of_mem _ (List.mem_cons_of_mem _ List.mem_cons_self)) rfl
  exact absurd height (by decide)

end Example

end DomProtocol.Settlement
