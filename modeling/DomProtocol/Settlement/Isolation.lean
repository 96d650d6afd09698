import DomProtocol.Settlement.Tables
import DomProtocol.Settlement.Walk

/-! # Settlement isolation

The outbox is one table for all settlements, and the query that hands out its entries names no
settlement. So a tick touches the effects of other settlements, unless none of them is in reach of
the query's limit: before each of them, at least as many entries as a tick takes have a smaller
source sequence (**`Store.OutOfReach`**). No weaker condition isolates a tick
(**`ticks_isolated`**).

A tick is looked at through its log of calls. Effect identifiers are digests of the settlement, the
source event and the effect (`Store.Derived`), so an entry found by its identifier is the one
claimed. -/

namespace DomProtocol.Settlement

open Act (Keeping Safe)

section Isolation

variable [Digests]

/-- The calls of an execution, each with the store it found. -/
abbrev Log := List (Call Ports Store)

/-- An engine that has the store to itself, with a log of its calls. -/
abbrev soloLogged : Environment Ports (Store × Log) := (Environment.alone Store.step).logged

/-! ## Effect identifiers -/

/-- Every outbox entry is identified by its settlement, its source event and its effect. -/
def Store.Derived (s : Store) : Prop :=
  ∀ row ∈ s.outbox, ∃ source, row.effectId = deriveEffectId row.settlementId source row.payload

/-- A commit enqueues the effects of its own envelope. -/
def Enqueues : Op → Prop
  | .store (.commitTransition req) => req.effects = effectsToOutbox req.env req.transition.effects
  | _ => True

namespace Store

variable {s s' : Store}

variable {reapplying : Bool} {req : Commit} {result : CommitResult} {now : Int}

theorem append_derived {rows : Rows}
    (enqueues : req.effects = effectsToOutbox req.env req.transition.effects)
    (h : s.append rows reapplying req = .ok (result, s')) (derived : s.Derived) : s'.Derived := by
  obtain ⟨outbox, happends, -, rfl⟩ := append_eq_ok.mp h
  refine foldlM_invariant (fun outbox : List OutboxRow => ∀ row ∈ outbox,
    ∃ source, row.effectId = deriveEffectId row.settlementId source row.payload) ?_ derived
    happends.enqueued
  intro before after effect heffect hbefore hstep row hrow
  obtain rfl | ⟨-, rfl⟩ := enqueue_cases hstep
  · exact hbefore row hrow
  · rcases mem_snoc.mp hrow with hold | rfl
    · exact hbefore row hold
    · rw [enqueues, effectsToOutbox, List.mem_map] at heffect
      obtain ⟨kind, -, rfl⟩ := heffect
      exact ⟨req.env.eventId, rfl⟩

theorem commitTransition_derived
    (enqueues : req.effects = effectsToOutbox req.env req.transition.effects)
    (h : s.commitTransition req = .ok (result, s')) (derived : s.Derived) : s'.Derived := by
  obtain ⟨rows, -, ⟨row, -, -, -, rfl⟩ | ⟨-, h⟩ | ⟨row, -, -, -, -, h⟩⟩ := commitTransition_cases h
  · exact derived
  · exact append_derived enqueues h derived
  · exact append_derived enqueues h derived

/-- Entries keep their identifiers when their lease or their status changes. -/
theorem Derived.map {f : OutboxRow → OutboxRow} (derived : s.Derived)
    (hf : ∀ row, (f row).settlementId = row.settlementId ∧ (f row).effectId = row.effectId ∧
      (f row).payload = row.payload) (hs' : s'.outbox = s.outbox.map f) : s'.Derived := by
  intro row hrow
  rw [hs', List.mem_map] at hrow
  obtain ⟨row, hrow, rfl⟩ := hrow
  obtain ⟨source, hsource⟩ := derived row hrow
  obtain ⟨hid, heffect, hpayload⟩ := hf row
  exact ⟨source, by rw [heffect, hid, hpayload, hsource]⟩

/-- The outbox is written by commits, claims and completions only. -/
theorem exec_derived {op : StoreOp} {value : op.Result} (enqueues : Enqueues (.store op))
    (h : s.exec op = .ok (value, s')) (derived : s.Derived) : s'.Derived := by
  rcases exec_outbox h with ⟨req, result, rfl, hcommit⟩ | rest
  · exact commitTransition_derived enqueues hcommit derived
  · obtain ⟨f, becomes, outbox⟩ : s.Redelivers s' := rest.elim .of_eq And.right
    exact derived.map (fun row => ⟨(becomes row).settlementId, (becomes row).effectId,
      (becomes row).payload⟩) outbox

theorem step_derived {op : Op} {r : op.Reply} (enqueues : Enqueues op)
    (h : Store.step op s r s') (derived : s.Derived) : s'.Derived := by
  cases op with
  | store op =>
    cases r with
    | error e => rw [h.1]; exact derived
    | ok value => exact exec_derived enqueues h derived
  | chain _ | execute _ => rw [show s' = s from h]; exact derived

/-- What a claim hands out: the first entries of the query, each with its identifiers. -/
theorem readyOutbox_claims {leaseMs : Int} {max : UInt32} {claimed : List ClaimedEffect}
    (h : s.readyOutbox now leaseMs max = .ok (claimed, s')) :
    List.Forall₂ (fun row effect => effect.settlementId = row.settlementId ∧
      effect.effectId = row.effectId ∧ effect.kind = row.payload)
      ((s.ready now).take max.toNat) claimed := by
  simp only [readyOutbox, bind_eq_ok, pure_eq_ok, mapError_eq_ok, Prod.mk.injEq] at h
  obtain ⟨effects, hclaim, -, -, rfl, -⟩ := h
  rw [mapM_eq_ok] at hclaim
  refine hclaim.imp fun row effect hrow => ?_
  simp only [claim, bind_eq_ok, pure_eq_ok] at hrow
  obtain ⟨attempts, -, rfl⟩ := hrow
  exact ⟨rfl, rfl, rfl⟩

theorem mem_ready {row : OutboxRow} :
    row ∈ s.ready now ↔ row ∈ s.outbox ∧ claimable now row = true := by
  rw [ready, (s.order.perm _).mem_iff, List.mem_filter]

/-! ## What a claim reaches -/

variable {id : SettlementId} {max : UInt32} {row : OutboxRow}

/-- How many entries come before an entry at a time, however ties are broken. -/
def ahead (s : Store) (now : Int) (row : OutboxRow) : Nat :=
  s.outbox.countP fun other => decide (other.sourceSeq < row.sourceSeq) && claimable now other

/-- **No foreign effect is in reach** of a claim: before each entry of another settlement that may be
handed out, at least as many as the claim takes have a smaller source sequence. -/
def OutOfReach (s : Store) (id : SettlementId) (now : Int) (max : UInt32) : Prop :=
  ∀ row ∈ s.outbox, claimable now row = true → row.settlementId ≠ id → max.toNat ≤ s.ahead now row

theorem ahead_eq (s : Store) (now : Int) (row : OutboxRow) :
    s.ahead now row = (s.ready now).countP fun other => other.sourceSeq < row.sourceSeq := by
  rw [ready, (s.order.perm _).countP_eq, List.countP_filter, ahead]

/-- An entry comes after those with a smaller sequence, so not later than their number tells if it is
the first of its ties. -/
theorem ahead_le_of_getElem {i : Nat} (found : (s.ready now)[i]? = some row) : s.ahead now row ≤ i := by
  have sorted := s.order.sorted (s.outbox.filter (claimable now))
  rw [ahead_eq, ← List.take_append_drop i (s.ready now), List.countP_append]
  obtain ⟨short, found⟩ := List.getElem?_eq_some_iff.mp found
  have later : ((s.ready now).drop i).countP (fun other => other.sourceSeq < row.sourceSeq) = 0 := by
    rw [List.countP_eq_zero]
    intro other mem
    obtain ⟨j, _, rfl⟩ := List.mem_iff_getElem.mp mem
    rw [List.getElem_drop, decide_eq_true_eq, UInt64.not_lt, ← found]
    rcases Nat.eq_zero_or_pos j with rfl | positive
    · exact UInt64.le_refl _
    · exact List.pairwise_iff_getElem.mp sorted i (i + j) short _ (by omega)
  rw [later]
  exact (List.countP_le_length ..).trans (List.length_take_le ..)

/-- **What is handed out is the settlement's own**, if no foreign effect is in reach. -/
theorem OutOfReach.own (far : s.OutOfReach id now max)
    (taken : row ∈ (s.ready now).take max.toNat) : row.settlementId = id := by
  by_contra foreign
  obtain ⟨i, short, found⟩ := List.mem_take_iff_getElem.mp taken
  obtain ⟨mem, ready⟩ := mem_ready.mp (List.mem_of_mem_take taken)
  have reach := far row mem ready foreign
  have place := ahead_le_of_getElem (List.getElem?_eq_some_iff.mpr ⟨_, found⟩)
  omega

/-- Entries of the settlement's own put no foreign effect into reach. -/
theorem OutOfReach.enqueued (far : s.OutOfReach id now max)
    (more : Enqueued id s.outbox s'.outbox) : s'.OutOfReach id now max := by
  obtain ⟨added, outbox, own⟩ := more
  intro row mem ready foreign
  rw [outbox, List.mem_append] at mem
  rcases mem with mem | mem
  · refine (far row mem ready foreign).trans ?_
    rw [ahead, ahead, outbox, List.countP_append]
    exact Nat.le_add_right _ _
  · exact (foreign (own row mem)).elim

/-- One entry before all that have its source sequence. -/
def Favours (row a b : OutboxRow) : Prop :=
  a.sourceSeq < b.sourceSeq ∨ a.sourceSeq = b.sourceSeq ∧ (a = row ∨ b ≠ row)

instance (row : OutboxRow) : DecidableRel (Favours row) := fun _ _ => inferInstanceAs (Decidable (_ ∨ _))

theorem favours_total (row : OutboxRow) : Std.Total (Favours row) where
  total a b := by
    unfold Favours
    by_cases same : a.sourceSeq = b.sourceSeq
    · by_cases first : a = row
      · exact .inl (.inr ⟨same, .inl first⟩)
      · exact .inr (.inr ⟨same.symm, .inr first⟩)
    · exact (UInt64.lt_or_lt_of_ne same).imp .inl .inl

theorem favours_trans (row : OutboxRow) : IsTrans OutboxRow (Favours row) where
  trans a b c := by
    rintro (ab | ⟨ab, first⟩) (bc | ⟨bc, second⟩)
    · exact .inl (UInt64.lt_trans ab bc)
    · exact .inl (bc ▸ ab)
    · exact .inl (ab ▸ bc)
    · refine .inr ⟨ab.trans bc, ?_⟩
      rcases first with first | other
      · exact .inl first
      · exact .inr (second.resolve_left other)

/-- The database returns one entry before all that have its source sequence. -/
def favouring (row : OutboxRow) : OutboxOrder where
  sort rows := rows.insertionSort (Favours row)
  perm := List.perm_insertionSort _
  sorted rows := by
    have := favours_total row
    have := favours_trans row
    exact (List.pairwise_insertionSort (Favours row) rows).imp fun h => 
      h.elim UInt64.le_of_lt fun h => UInt64.le_of_eq h.1

/-- The favoured entry is handed out if the entries before it leave room. -/
theorem taken_of_favouring (mem : row ∈ s.outbox) (ready : claimable now row = true)
    (room : s.ahead now row < max.toNat) :
    row ∈ (({ s with order := favouring row } : Store).ready now).take max.toNat := by
  have total := favours_total row
  have trans := favours_trans row
  let rows := ({ s with order := favouring row } : Store).ready now
  have sorted : rows.Pairwise (Favours row) := List.pairwise_insertionSort _ _
  have present : row ∈ rows := mem_ready.mpr ⟨mem, ready⟩
  have short := List.idxOf_lt_length_iff.mpr present
  -- what stands before the first occurrence of the entry has a smaller sequence
  have before : ∀ other ∈ rows.take (rows.idxOf row), other.sourceSeq < row.sourceSeq := by
    intro other taken
    obtain ⟨j, bound, rfl⟩ := List.mem_take_iff_getElem.mp taken
    have earlier : j < rows.idxOf row := by omega
    have favours := List.pairwise_iff_getElem.mp sorted j _ (by omega) short earlier
    rw [List.getElem_idxOf] at favours
    rcases favours with less | ⟨-, same | other⟩
    · exact less
    · have differs := List.not_of_lt_findIdx earlier
      rw [same, beq_self_eq_true] at differs
      cases differs
    · exact (other rfl).elim
  have place : rows.idxOf row ≤ s.ahead now row := by
    have all := List.countP_eq_length.mpr fun other mem => decide_eq_true (before other mem)
    rw [List.length_take, Nat.min_eq_left short.le] at all
    rw [← all, show s.ahead now row = ({ s with order := favouring row } : Store).ahead now row from rfl,
      ahead_eq]
    exact (List.take_sublist _ _).countP_le
  exact List.mem_take_iff_getElem.mpr
    ⟨_, Nat.lt_min.mpr ⟨place.trans_lt room, short⟩, List.getElem_idxOf short⟩

/-- A claim overflows no counter. -/
structure Counts (s : Store) (now leaseMs : Int) : Prop where
  attempts : ∀ row ∈ s.outbox, row.attempts.toNat + 1 < 2 ^ 64
  lease : ¬ (now + leaseMs < -2 ^ 63 ∨ 2 ^ 63 ≤ now + leaseMs)

/-- A claim that overflows no counter succeeds. -/
theorem Counts.readyOutbox {leaseMs : Int} (counts : s.Counts now leaseMs) (max : UInt32) :
    ∃ claimed s', s.readyOutbox now leaseMs max = .ok (claimed, s') := by
  have each : ∀ row ∈ (s.ready now).take max.toNat, ∃ effect, claim row = .ok effect := by
    intro row mem
    have attempts := counts.attempts row (mem_ready.mp (List.mem_of_mem_take mem)).1
    refine ⟨⟨row.settlementId, row.effectId, row.payload, row.payloadHash, row.attempts + 1⟩, ?_⟩
    have sum : checkedAdd row.attempts 1 = some (row.attempts + 1) := by
      rw [checkedAdd_eq_some, UInt64.toNat_add]
      exact Nat.mod_eq_of_lt attempts
    rw [claim, sum]
    rfl
  obtain ⟨claimed, hclaimed⟩ := exists_mapM_eq_ok each
  rw [Store.readyOutbox, hclaimed, rejectIf_of_not _ counts.lease]
  exact ⟨claimed, _, rfl⟩

/-- **Exactly when a claim keeps to a settlement**, however the database breaks ties: when no foreign
effect is in reach. -/
theorem claims_own_iff {leaseMs : Int} (counts : s.Counts now leaseMs) :
    (∀ order claimed s', ({ s with order := order } : Store).readyOutbox now leaseMs max =
      .ok (claimed, s') → ∀ effect ∈ claimed, effect.settlementId = id) ↔
      s.OutOfReach id now max := by
  constructor
  · intro own row mem ready foreign
    by_contra! room
    have counts' : Counts { s with order := favouring row } now leaseMs := ⟨counts.attempts, counts.lease⟩
    obtain ⟨claimed, s', done⟩ := counts'.readyOutbox max
    obtain ⟨effect, handed, same, -⟩ := exists_of_forall₂ (readyOutbox_claims done)
      (taken_of_favouring mem ready room)
    exact foreign (same.symm.trans (own _ claimed s' done effect handed))
  · intro far order claimed s' done effect handed
    obtain ⟨row, taken, same, -⟩ := exists_of_forall₂ (readyOutbox_claims done).flip handed
    have far' : OutOfReach { s with order := order } id now max := far
    rw [same]
    exact far'.own taken

end Store

variable {state state' : Store × Log} {op : Op} {r : op.Reply} {effects : List ClaimedEffect}
  {effect : ClaimedEffect}

/-! ## Isolation -/

/-- An effect was handed out in a call of the log. -/
def Claimed (log : Log) (effect : ClaimedEffect) : Prop :=
  ∃ now leaseMs max before claimed,
    (⟨.store (.readyOutbox now leaseMs max), before, .ok claimed⟩ : Call Ports Store) ∈ log ∧
      effect ∈ claimed

/-- **A log leaves the effects of other settlements alone.** -/
structure Isolated (id : SettlementId) (log : Log) : Prop where
  claims : ∀ effect, Claimed log effect → effect.settlementId = id
  executes : ∀ effect before reply,
    (⟨.execute effect, before, reply⟩ : Call Ports Store) ∈ log → effect.settlementId = id
  completes : ∀ effectId payloadHash before reply,
    (⟨.store (.completeEffect effectId payloadHash), before, reply⟩ : Call Ports Store) ∈ log →
      ∀ row ∈ before.outbox, row.effectId = effectId → row.settlementId = id
  rewinds : ∀ floor before reply,
    (⟨.chain (.cursorAt floor), before, reply⟩ : Call Ports Store) ∈ log →
      ∃ effect, Claimed log effect ∧ effect.settlementId = id ∧
        ∃ height, effect.kind = .revalidateFrom height ∧ floor = saturatingSub height 1

/-- Operations that claim, execute or complete effects, or rewind the scanner. -/
def DispatchOp : Op → Prop
  | .store (.readyOutbox _ _ _) => True
  | .store (.completeEffect _ _) => True
  | .chain (.cursorAt _) => True
  | .execute _ => True
  | _ => False

variable {id : SettlementId} {log : Log} {call : Call Ports Store}

theorem Claimed.append (h : Claimed log effect) : Claimed (log ++ [call]) effect := by
  obtain ⟨now, leaseMs, max, before, claimed, hmem, heffect⟩ := h
  exact ⟨now, leaseMs, max, before, claimed, List.mem_append_left _ hmem, heffect⟩

/-- A log stays isolated if the next call claims, executes, completes and rewinds for the settlement
only. -/
theorem Isolated.append (isolated : Isolated id log) (claims : ∀ now leaseMs max before claimed,
      call = ⟨.store (.readyOutbox now leaseMs max), before, .ok claimed⟩ →
        ∀ effect ∈ claimed, effect.settlementId = id)
    (executes : ∀ effect before reply, call = ⟨.execute effect, before, reply⟩ →
      effect.settlementId = id)
    (completes : ∀ effectId payloadHash before reply,
      call = ⟨.store (.completeEffect effectId payloadHash), before, reply⟩ →
        ∀ row ∈ before.outbox, row.effectId = effectId → row.settlementId = id)
    (rewinds : ∀ floor before reply, call = ⟨.chain (.cursorAt floor), before, reply⟩ →
      ∃ effect, Claimed log effect ∧ effect.settlementId = id ∧
        ∃ height, effect.kind = .revalidateFrom height ∧ floor = saturatingSub height 1) :
    Isolated id (log ++ [call]) := by
  have hlast : ∀ {c : Call Ports Store}, c ∈ log ++ [call] → c ∈ log ∨ call = c := by
    intro c hc
    exact (mem_snoc.mp hc).imp_right Eq.symm
  refine ⟨?_, ?_, ?_, ?_⟩
  · rintro effect ⟨now, leaseMs, max, before, claimed, hmem, heffect⟩
    rcases hlast hmem with hold | hnew
    · exact isolated.claims effect ⟨now, leaseMs, max, before, claimed, hold, heffect⟩
    · exact claims _ _ _ _ _ hnew effect heffect
  · intro effect before reply hmem
    rcases hlast hmem with hold | hnew
    · exact isolated.executes effect before reply hold
    · exact executes _ _ _ hnew
  · intro effectId payloadHash before reply hmem
    rcases hlast hmem with hold | hnew
    · exact isolated.completes effectId payloadHash before reply hold
    · exact completes _ _ _ _ hnew
  · intro floor before reply hmem
    have hclaimed : ∃ effect, Claimed log effect ∧ effect.settlementId = id ∧
        ∃ height, effect.kind = .revalidateFrom height ∧ floor = saturatingSub height 1 := by
      rcases hlast hmem with hold | hnew
      · exact isolated.rewinds floor before reply hold
      · exact rewinds _ _ _ hnew
    obtain ⟨effect, heffect, hrest⟩ := hclaimed
    exact ⟨effect, heffect.append, hrest⟩

/-- A call outside dispatch keeps a log isolated. -/
theorem Isolated.append_quiet (isolated : Isolated id log) (quiet : ¬ DispatchOp call.op) :
    Isolated id (log ++ [call]) := by
  refine isolated.append ?_ ?_ ?_ ?_
  · rintro now leaseMs max before claimed rfl
    exact absurd trivial quiet
  · rintro effect before reply rfl
    exact absurd trivial quiet
  · rintro effectId payloadHash before reply rfl
    exact absurd trivial quiet
  · rintro floor before reply rfl
    exact absurd trivial quiet

/-! ## A tick keeps to its settlement if no foreign effect is in reach -/

/-- The invariant of a tick, which may start `far` from the effects of other settlements and `waits`
until it dispatches. -/
structure TickGood (far waits : Prop) (host : Engine) (now : Int) (state : Store × Log) : Prop where
  derived : state.1.Derived
  isolated : far → Isolated host.settlementId state.2
  reach : far → waits → state.1.OutOfReach host.settlementId now host.maxEffectsPerTick

variable {far waits : Prop} {host : Engine} {now : Int}

theorem TickGood.stable (h : soloLogged.rely state state')
    (good : TickGood far waits host now state) : TickGood far waits host now state' := by
  obtain ⟨s, log⟩ := state
  obtain ⟨s', log'⟩ := state'
  obtain ⟨rfl, rfl⟩ : s = s' ∧ log' = log := h
  exact good

/-- What holds before dispatch holds after it. -/
theorem TickGood.dispatched (good : TickGood far waits host now state) : TickGood far False host now state :=
  ⟨good.derived, good.isolated, fun _ => False.elim⟩

/-- Commits are of the settlement's own envelopes. -/
def CommitsFor (id : SettlementId) : Op → Prop
  | .store (.commitTransition req) => req.env.settlementId = id
  | _ => True

theorem Binding.EngineOp.commitsFor {b : Binding} (h : b.EngineOp op) : CommitsFor id op := by
  cases op with
  | store op => cases op <;> first | exact h.elim | trivial
  | _ => trivial

theorem IngestOp.commitsFor {env : EventEnvelope} {cursorUpdate : Option CursorUpdate}
    (h : IngestOp env cursorUpdate op) (own : env.settlementId = id) : CommitsFor id op := by
  cases op with
  | store op =>
    cases op with
    | commitTransition req => exact (congrArg EventEnvelope.settlementId h.1).trans own
    | _ => trivial
  | _ => trivial

/-- Outside dispatch, the outbox only grows by entries of the settlement that commits. -/
theorem step_enqueued {s s' : Store} (quiet : QuietOp op) (own : CommitsFor id op)
    (h : Store.step op s r s') : Store.Enqueued id s.outbox s'.outbox := by
  cases op with
  | store op =>
    cases r with
    | error e => rw [h.1]; exact .refl _ _
    | ok value =>
      rcases Store.exec_outbox h with ⟨req, result, rfl, hcommit⟩ | same | ⟨loud, -⟩
      · have more := Store.commitTransition_enqueued hcommit
        rwa [show req.env.settlementId = id from own] at more
      · rw [same]
        exact .refl _ _
      · exact (loud quiet).elim
  | chain _ | execute _ => rw [show s' = s from h]; exact .refl _ _

/-- A quiet operation is outside dispatch. -/
theorem QuietOp.outside (quiet : QuietOp op) : ¬ DispatchOp op ∧ Enqueues op := by
  revert quiet
  unfold QuietOp DispatchOp Enqueues
  split <;> simp

/-- A call outside dispatch keeps the invariant. -/
theorem TickGood.quiet (quiet : QuietOp op) (own : CommitsFor host.settlementId op)
    (h : soloLogged.step op state r state') (good : TickGood far waits host now state) :
    TickGood far waits host now state' := by
  have outside := quiet.outside
  obtain ⟨s', log'⟩ := state'
  obtain ⟨hstep, rfl⟩ := h
  refine ⟨Store.step_derived outside.2 hstep good.derived,
    fun hfar => (good.isolated hfar).append_quiet outside.1, fun hfar waiting => ?_⟩
  exact (good.reach hfar waiting).enqueued (step_enqueued quiet own hstep)

/-- The regime of a tick. -/
abbrev ticking (far waits : Prop) (host : Engine) (now : Int) : Regime Ports (Store × Log) :=
  ⟨soloLogged, TickGood far waits host now, fun _ _ h good => good.stable h⟩

/-- **The walk of a tick**: what is not dispatched is quiet, whatever the engine is shown. -/
def tickWalk (far waits : Prop) (host : Engine) (now : Int) : Walk soloLogged host.binding where
  inv := TickGood far waits host now
  stable _ _ h good := good.stable h
  Observed _ := True
  Tip _ := True
  Position _ := True
  Env env := env.settlementId = host.settlementId
  Limit max := max = host.maxEffectsPerTick
  kept _ _ _ _ engineOp quiet done good := good.quiet quiet (engineOp.commitsFor) done
  ingest {env cursorUpdate} _ own _ := (ingestEvent_silent env cursorUpdate).keeping
    fun _ _ _ _ h done good => good.quiet h.quiet (h.commitsFor own) done
  appliedFunding _ _ _ _ _ _ _ _ := trivial
  appliedClaim _ _ _ _ _ _ _ _ := trivial
  parked _ _ _ _ _ _ _ _ _ _ := rfl
  position _ _ _ _ _ _ _ := trivial
  quiet _ _ := rfl
  funding _ _ := ⟨rfl, rfl⟩
  claim _ _ := ⟨rfl, fun _ _ _ => rfl⟩
  refund _ _ _ _ _ := rfl

/-- **An engine bound to one settlement** has parked envelopes of that settlement only. -/
def Engine.Bound (engine : Engine) : Prop :=
  ∀ env ∈ engine.reorder, env.settlementId = engine.settlementId

/-- A bound engine remembers nothing that its walk does not allow. -/
theorem tickWalk_memory {engine : Engine} (bound : engine.Bound) :
    (tickWalk far waits engine now).Memory engine :=
  ⟨rfl, rfl, bound, fun _ _ => trivial⟩

theorem consumeBatch_keeps (records : List ChainRecord) (scannedTo : ChainCursor) :
    Keeping (ticking far waits host now) (tickWalk far waits host now).Memory (fun _ => True)
      (consumeBatch records scannedTo) := by
  refine ⟨fun engine s memory good => ?_⟩
  let passage := (tickWalk far waits host now).passage (fun _ => trivial) (fun _ => trivial)
    fun _ _ _ _ _ => trivial
  exact (passage.consumeBatch (fun _ => ⟨trivial, fun _ _ => trivial⟩) memory good).mono
    (fun _ _ _ done => ⟨done.1, trivial, done.2⟩) fun _ _ _ done => ⟨done.1, done.2⟩

/-! ## Dispatch -/

/-- A claimed effect is identified by what it is. -/
structure Handed (log : Log) (effect : ClaimedEffect) : Prop where
  claimed : Claimed log effect
  derived : ∃ source, effect.effectId = deriveEffectId effect.settlementId source effect.kind

theorem Handed.append (h : Handed log effect) : Handed (log ++ [call]) effect :=
  ⟨h.claimed.append, h.derived⟩

/-- What a claim hands out is handed out in the log. -/
theorem handed_of_readyOutbox {s s' : Store} {now leaseMs : Int} {max : UInt32}
    {claimed : List ClaimedEffect} (h : s.readyOutbox now leaseMs max = .ok (claimed, s'))
    (derived : s.Derived) (mem : effect ∈ claimed) :
    Handed (log ++ [⟨.store (.readyOutbox now leaseMs max), s, .ok claimed⟩]) effect := by
  refine ⟨⟨now, leaseMs, max, s, claimed, List.mem_append_right _ List.mem_cons_self, mem⟩, ?_⟩
  obtain ⟨row, hrow, hid, heffect, hkind⟩ := exists_of_forall₂ (Store.readyOutbox_claims h).flip mem
  obtain ⟨source, hsource⟩ :=
    derived row (Store.mem_ready.mp (List.mem_of_mem_take hrow)).1
  exact ⟨source, by rw [heffect, hid, hkind, hsource]⟩

/-- A call of dispatch keeps the invariant, if it keeps the log isolated. -/
theorem TickGood.append
    (h : soloLogged.step op state r state') (enqueues : Enqueues op)
    (good : TickGood far waits host now state)
    (next : far → Isolated host.settlementId state.2 → Isolated host.settlementId state'.2) :
    TickGood far False host now state' :=
  ⟨Store.step_derived enqueues h.1 good.derived, fun hfar => next hfar (good.isolated hfar),
    fun _ => False.elim⟩

/-- What holds while claimed effects are dispatched. -/
structure Dispatching (far : Prop) (host : Engine) (now : Int) (effects : List ClaimedEffect)
    (state : Store × Log) : Prop where
  good : TickGood far False host now state
  handed : ∀ effect ∈ effects, Handed state.2 effect

theorem Dispatching.stable
    (h : soloLogged.rely state state') (dispatching : Dispatching far host now effects state) :
    Dispatching far host now effects state' := by
  refine ⟨dispatching.good.stable h, fun effect mem => ?_⟩
  rw [h.2]
  exact dispatching.handed effect mem

/-- The log grows, and what was handed out stays handed out. -/
theorem Dispatching.append (h : soloLogged.step op state r state') (enqueues : Enqueues op)
    (dispatching : Dispatching far host now effects state)
    (next : far → Isolated host.settlementId state.2 → Isolated host.settlementId state'.2) :
    Dispatching far host now effects state' := by
  refine ⟨dispatching.good.append h enqueues next, fun effect mem => ?_⟩
  rw [h.2]
  exact (dispatching.handed effect mem).append

section Dispatch

variable {m : Engine} {state : Store × Log}

/-- **A part of a tick that has claimed its effects** keeps the invariant and ends with `Q`. -/
abbrev TickSafe (far : Prop) (host : Engine) (now : Int) (Q : Store × Log → Prop) {α : Type}
    (x : EngineAct α) (m : Engine) (state : Store × Log) : Prop :=
  Safe soloLogged (TickGood far False host now) x m state (fun _ _ => Q)
    fun _ _ => TickGood far False host now

/-- Two parts of a tick, one after the other. -/
theorem TickSafe.bind {α β : Type} {Q R : Store × Log → Prop} {x : EngineAct α} {f : α → EngineAct β}
    (first : TickSafe far host now Q x m state)
    (next : ∀ a m t, Q t → TickSafe far host now R (f a) m t) :
    TickSafe far host now R (x >>= f) m state :=
  Safe.bind (first.mono next fun _ _ _ good _ ht => good.stable ht)

section Claimed

variable (start : Dispatching far host now (effect :: effects) state)
include start

/-- Completing a claimed effect completes no entry of another settlement. -/
theorem completeEffect_safe [LawfulDigests] :
    TickSafe far host now (Dispatching far host now effects) (completeEffect effect) m state := by
  refine Safe.bind (storeCall_safe fun state₁ r state₂ moved done => ?_)
  have before := start.stable moved
  have after : Dispatching far host now (effect :: effects) state₂ := by
    refine before.append done trivial fun _ isolated => ?_
    obtain ⟨hclaimed, source, hsource⟩ := before.handed effect List.mem_cons_self
    have hown := isolated.claims effect hclaimed
    rw [done.2]
    refine isolated.append nofun nofun ?_ nofun
    -- the entry found by its identifier is the one that was claimed
    rintro effectId payloadHash store reply hcall row hrow heffect
    cases hcall
    obtain ⟨source', hsource'⟩ := before.good.derived row hrow
    rw [heffect, hsource] at hsource'
    rw [← hown]
    exact (LawfulDigests.deriveEffectId_inj hsource').1.symm
  refine ⟨after.good, fun t ht => ⟨fun _ _ => Safe.modify fun t' ht' => ?_, fun _ _ t' ht' => ?_⟩⟩
  · have last := (after.stable ht).stable ht'
    exact ⟨last.good, fun other mem => last.handed other (List.mem_cons_of_mem _ mem)⟩
  · exact ((after.stable ht).stable ht').good

/-- Executing a claimed effect executes an effect of the settlement. -/
theorem executeEffect_safe :
    TickSafe far host now (Dispatching far host now (effect :: effects)) (executeEffect effect) m
      state := by
  intro state₁ r state₂ moved done
  have before := start.stable moved
  have after : Dispatching far host now (effect :: effects) state₂ := by
    refine before.append done trivial fun _ isolated => ?_
    rw [done.2]
    refine isolated.append nofun ?_ nofun nofun
    rintro other store reply hcall
    cases hcall
    exact isolated.claims effect (before.handed effect List.mem_cons_self).claimed
  exact ⟨after.good, fun t ht => after.stable ht⟩

/-- Rewinding the scanner for a claimed effect. -/
theorem rewindTo_safe {height : UInt64} (kind : effect.kind = .revalidateFrom height) :
    TickSafe far host now (Dispatching far host now (effect :: effects)) (rewindTo height) m
      state := by
  refine Safe.bind (Safe.get fun t ht => ?_)
  have here := start.stable ht
  dsimp only
  split
  · refine Safe.bind ?_
    intro state₁ r state₂ moved done
    have before := here.stable moved
    have after : Dispatching far host now (effect :: effects) state₂ := by
      refine before.append done trivial fun _ isolated => ?_
      rw [done.2]
      refine isolated.append nofun nofun nofun ?_
      rintro floor store reply hcall
      cases hcall
      have hclaimed := (before.handed effect List.mem_cons_self).claimed
      exact ⟨effect, hclaimed, isolated.claims effect hclaimed, height, kind, rfl⟩
    refine ⟨after.good, ?_⟩
    cases r with
    | error e => exact fun t₁ ht₁ t₂ ht₂ => ((after.stable ht₁).stable ht₂).good
    | ok cursor =>
      exact fun t₁ ht₁ => Safe.modify fun t₂ ht₂ => (after.stable ht₁).stable ht₂
  · exact Safe.ret fun t' ht' => here.stable ht'

/-- Dispatching a claimed effect keeps to the settlement. -/
theorem dispatchEffect_safe [LawfulDigests] :
    TickSafe far host now (Dispatching far host now effects) (dispatchEffect effect) m state := by
  have later {t : Store × Log} (h : Dispatching far host now (effect :: effects) t) :
      Dispatching far host now effects t :=
    ⟨h.good, fun other mem => h.handed other (List.mem_cons_of_mem _ mem)⟩
  unfold dispatchEffect
  split
  · rename_i height kind
    exact (rewindTo_safe start kind).bind fun _ _ _ h => completeEffect_safe h
  · refine (executeEffect_safe start).bind fun outcome m' t here => ?_
    cases outcome with
    | completed => exact completeEffect_safe here
    | retryLater => exact Safe.ret fun t' ht' => later (here.stable ht')
    | rejected => exact Safe.modify fun t' ht' => later (here.stable ht')

end Claimed

/-- **Dispatch keeps to the settlement** if no foreign effect is in reach. -/
theorem dispatch_safe [LawfulDigests] {engine : Engine}
    (limit : engine.maxEffectsPerTick = host.maxEffectsPerTick)
    (good : TickGood far True host now state) :
    TickSafe far host now (TickGood far False host now) (dispatch now) engine state := by
  refine Safe.bind (Safe.get fun t ht => Safe.bind ?_)
  refine storeCall_safe fun state₁ r state₂ moved done => ?_
  have before := (good.stable ht).stable moved
  have after : TickGood far False host now state₂ := by
    refine before.append done trivial fun hfar isolated => ?_
    rw [done.2]
    refine isolated.append ?_ nofun nofun nofun
    -- the entries handed out are the first of the query, so none of them is foreign
    rintro now' leaseMs max store claimed hcall effect heffect
    cases hcall
    obtain ⟨row, taken, same, -⟩ := exists_of_forall₂ (Store.readyOutbox_claims done.1).flip heffect
    rw [same]
    rw [limit] at taken
    exact (before.reach hfar trivial).own taken
  refine ⟨after, fun t₁ ht₁ => ⟨?_, fun e _ t₂ ht₂ => (after.stable ht₁).stable ht₂⟩⟩
  rintro claimed rfl
  refine Safe.bind (Safe.modify fun t₂ ht₂ => ?_)
  have start : Dispatching far host now claimed state₂ := by
    refine ⟨after, fun effect mem => ?_⟩
    rw [done.2]
    exact handed_of_readyOutbox done.1 before.derived mem
  refine (Safe.forEach (fun effects _ t => Dispatching far host now effects t)
    (fun _ _ _ _ ht h => h.stable ht) (fun effect effects m' t h => ?_)
    ((start.stable ht₁).stable ht₂)).mono (fun _ _ _ h => h.good) fun _ _ _ h => h
  exact (dispatchEffect_safe h).mono (fun _ _ _ h => h) fun _ _ _ good _ ht => good.stable ht

/-- A part of the tick before it dispatches, and what comes after it. -/
theorem quiet_then {α β : Type} {Q : α → Prop} {x : EngineAct α} {f : α → EngineAct β}
    (quiet : Keeping (tickWalk far True host now).regime (tickWalk far True host now).Memory Q x)
    (memory : (tickWalk far True host now).Memory m) (good : TickGood far True host now state)
    (next : ∀ a m t, (tickWalk far True host now).Memory m → TickGood far True host now t →
      TickSafe far host now (TickGood far False host now) (f a) m t) :
    TickSafe far host now (TickGood far False host now) (x >>= f) m state :=
  Safe.bind (((tickWalk far True host now).safe quiet (fun _ good => good.dispatched) memory good).mono
    (fun a m t done => next a m t done.1 done.2.2) fun _ _ _ done _ ht => done.2.dispatched.stable ht)

/-- **A tick keeps to its settlement** if no foreign effect is in reach when it starts. -/
theorem tick_safe [LawfulDigests] (memory : (tickWalk far True host now).Memory m)
    (good : TickGood far True host now state) :
    TickSafe far host now (TickGood far False host now) (tick now) m state := by
  let W := tickWalk far True host now
  refine quiet_then (W.modifyReport _) memory good fun _ m t memory good => ?_
  refine quiet_then ((W.buffered W.drainParked).mapError _) memory good fun _ m t memory good => ?_
  refine quiet_then (Q := fun _ => True) (Act.keeping_get.bind fun engine _ =>
    W.askChain (.scan engine.scanCursor) (W.kept _ · · · trivial trivial) fun _ _ _ _ _ => trivial)
    memory good fun batch m t memory good => ?_
  refine quiet_then (consumeBatch_keeps ..) memory good fun _ m t memory good => ?_
  refine quiet_then (W.applyPolicy fun _ _ _ _ _ => trivial) memory good fun _ m t memory good => ?_
  refine (dispatch_safe memory.limit good).bind fun _ m t good => ?_
  have last : Keeping (ticking far False host now) (fun _ => True) (fun _ => True)
      (do
        let last ← snapshot
        modifyReport fun report => { report with state := some last.context.state }
        let engine ← Act.get
        pure engine.report) := by
    refine Keeping.bind (Q := fun _ => True) (Act.keeping_get.bind fun engine _ =>
      ((tickWalk far False host now).askStore (.load engine.settlementId) (Q := fun _ => True)
        (fun _ _ _ done good => good.quiet
          (show QuietOp (.store (.load engine.settlementId)) from trivial) trivial done)
        fun _ _ _ _ _ => trivial).bind
        fun loaded _ => ?_) fun _ _ => (Act.keeping_modify fun _ _ => trivial).bind fun _ _ =>
          Act.keeping_get.bind fun _ _ => Act.keeping_ret trivial
    cases loaded with
    | none => exact Act.keeping_fail _
    | some snapshot => exact Act.keeping_ret trivial
  exact (last.safe m t trivial good).mono (fun _ _ _ h => h.2.2) fun _ _ _ h => h.2

end Dispatch

variable {engine : Engine} {s s' : Store}

/-! ## Runs of ticks -/

/-- A tick of an engine bound to one settlement, complete or cut short, with the log of its calls. -/
def Ticks (engine : Engine) (now : Int) (s s' : Store) (log : Log) : Prop :=
  engine.Bound ∧ ∃ p, Prog.Steps soloLogged (tick now engine) (s, []) p (s', log)

theorem Ticks.good [LawfulDigests] (ticks : Ticks engine now s s' log) (derived : s.Derived) :
    TickGood (s.OutOfReach engine.settlementId now engine.maxEffectsPerTick) False engine now
      (s', log) := by
  obtain ⟨bound, p, run⟩ := ticks
  have start : TickGood (s.OutOfReach engine.settlementId now engine.maxEffectsPerTick) True
      engine now (s, []) := by
    refine ⟨derived, fun _ => ⟨?_, nofun, nofun, nofun⟩, fun far _ => far⟩
    rintro effect ⟨now, leaseMs, max, before, claimed, mem, -⟩
    cases mem
  exact Prog.Safe.inv_of_steps (tick_safe (tickWalk_memory bound) start)
    (fun _ _ h good => good.stable h) start.dispatched run

/-- A run of ticks of engines, each bound to one settlement. -/
def TickRun : Store → Store → Prop :=
  Relation.ReflTransGen fun s s' => ∃ engine now log, Ticks engine now s s' log

theorem TickRun.derived [LawfulDigests] (run : TickRun s s') (derived : s.Derived) :
    s'.Derived := by
  induction run with
  | refl => exact derived
  | tail _ step ih =>
    obtain ⟨engine, now, log, ticks⟩ := step
    exact (ticks.good ih).derived

/-- **Isolation of ticks.** In every run of ticks of engines, each bound to one settlement, a tick that
starts with no effect of another settlement in reach claims, executes and completes effects of its own
settlement only, and rewinds its scanner for them only. The condition is exact: from a store with that
outbox, a claim hands out effects of the settlement only, however the database breaks ties, if and
only if none of another settlement is in reach. -/
theorem ticks_isolated [LawfulDigests] {s₀ s s' : Store} (derived : s₀.Derived) (run : TickRun s₀ s)
    {engine : Engine} {now : Int} (ticks : Ticks engine now s s' log) :
    (s.OutOfReach engine.settlementId now engine.maxEffectsPerTick →
      Isolated engine.settlementId log) ∧
    (s.Counts now engine.leaseMs →
      ((∀ order claimed after, ({ s with order := order } : Store).readyOutbox now engine.leaseMs
          engine.maxEffectsPerTick = .ok (claimed, after) →
        ∀ effect ∈ claimed, effect.settlementId = engine.settlementId) ↔
        s.OutOfReach engine.settlementId now engine.maxEffectsPerTick)) :=
  ⟨(ticks.good (run.derived derived)).isolated, Store.claims_own_iff⟩

end Isolation

section Example

attribute [local instance] freeDigests freeDigests_lawful

/-- Ingesting events keeps the identifiers of the entries. -/
theorem exampleIngested_derived {s : Store} (derived : s.Derived) (envs : List EventEnvelope) :
    (exampleIngested s envs).Derived := by
  induction envs generalizing s with
  | nil => exact derived
  | cons env rest ih =>
    refine ih ?_
    let G : Regime Ports Store := ⟨Environment.alone Store.step, Store.Derived, fun _ _ h => h ▸ id⟩
    have keeps : Keeping G (fun _ : Unit => True) (fun _ => True)
        (ingestEvent env none : Client Unit IngestError IngestResult) :=
      (ingestEvent_silent env none).keeping fun _ _ _ _ h done =>
        Store.step_derived h.quiet.outside.2 done
    exact Prog.Safe.inv_of_steps (keeps.safe () s trivial derived) (fun _ _ h => h ▸ id) derived
      (Prog.steps_run Store.respond_step _ s)

/-- Two settlements; the refund of the second is armed, so its funding is in the outbox. -/
def twoSettlements : Store :=
  exampleIngested (exampleStore [1, 2]) [exampleEnvelope 2 .refundArmed]

/-- A chain without records, and a sink that executes everything. -/
def emptyChain : (op : Op) → Store → op.Reply × Store
  | .chain (.scan start), s => (.ok ([], start), s)
  | .chain .tipHeight, s => (.ok 0, s)
  | .execute _, s => (.completed, s)
  | op, s => Store.respond op s

theorem emptyChain_step (op : Op) (s : Store) :
    Store.step op s (emptyChain op s).1 (emptyChain op s).2 := by
  cases op with
  | store op => exact Store.respond_step (.store op) s
  | chain op => cases op <;> rfl
  | execute effect => rfl

/-- A tick over that chain, with its log. -/
def exampleTick (engine : Engine) (s : Store) : Store × Log :=
  ((tick 0 engine).run (Prog.logging emptyChain) (s, [])).2

theorem exampleTick_ticks (engine : Engine) (fresh : engine.reorder = []) (s : Store) :
    Ticks engine 0 s (exampleTick engine s).1 (exampleTick engine s).2 := by
  refine ⟨fun env mem => ?_, _, Prog.steps_logging emptyChain_step _ _⟩
  rw [fresh] at mem
  cases mem

/-- Two settlements with an effect each: the funding of the first, and of the second, whose funding is
done, the refund after its timelock, at a later sequence. -/
def queuedSettlements : Store :=
  let busy := exampleIngested (exampleStore [1, 2]) [exampleEnvelope 1 .refundArmed,
    exampleEnvelope 2 .refundArmed, exampleEnvelope 2 (.fundingObserved ⟨0, 0, 0, 5, 0⟩),
    exampleEnvelope 2 .timelockExpired]
  (Store.respond (.store (.completeEffect (deriveEffectId 2 (deriveEventId 2 .refundArmed)
    .authorizeFunding) (effectPayloadHash .authorizeFunding))) busy).2

/-- The engine of the first settlement, taking one effect in a tick. -/
def frugalEngine : Engine := { exampleEngine 1 with maxEffectsPerTick := 1 }

/-- The tick of the first settlement keeps to it: the effect of the second is behind its own. -/
theorem frugalEngine_isolated :
    queuedSettlements.outbox.map (fun row => (row.settlementId, row.sourceSeq, row.completed)) =
        [(1, 1, false), (2, 1, true), (2, 3, false)] ∧
      Isolated 1 (exampleTick frugalEngine queuedSettlements).2 := by
  have rows : queuedSettlements.outbox.map
      (fun row => (row.settlementId, row.sourceSeq, row.completed)) =
        [(1, 1, false), (2, 1, true), (2, 3, false)] := by decide +kernel
  have empty : (exampleStore [1, 2]).outbox = [] := by decide +kernel
  have derived : queuedSettlements.Derived := by
    refine Store.step_derived (show Enqueues (.store (.completeEffect _ _)) from trivial)
      (Store.respond_step _ _) (exampleIngested_derived (fun row mem => ?_) _)
    rw [empty] at mem
    cases mem
  have far : queuedSettlements.OutOfReach 1 0 1 := by
    unfold Store.OutOfReach
    decide +kernel
  exact ⟨rows, (ticks_isolated derived .refl
    (exampleTick_ticks frugalEngine rfl queuedSettlements)).1 far⟩

/-- The settlement of an executed effect. -/
def executedFor : Call Ports Store → Option SettlementId
  | ⟨.execute effect, _, _⟩ => some effect.settlementId
  | _ => none

/-- **An engine executes the effect of another settlement**: the tick of the first one authorizes the
funding of the second. -/
theorem foreign_effect_executed :
    Ticks (exampleEngine 1) 0 twoSettlements (exampleTick (exampleEngine 1) twoSettlements).1
        (exampleTick (exampleEngine 1) twoSettlements).2 ∧
      ¬ Isolated 1 (exampleTick (exampleEngine 1) twoSettlements).2 := by
  refine ⟨exampleTick_ticks _ rfl _, fun isolated => ?_⟩
  have executed : (exampleTick (exampleEngine 1) twoSettlements).2.filterMap executedFor = [2] := by
    decide +kernel
  have mem : (2 : SettlementId) ∈ (exampleTick (exampleEngine 1) twoSettlements).2.filterMap
      executedFor := by
    rw [executed]
    exact List.mem_singleton.mpr rfl
  obtain ⟨⟨op, before, reply⟩, called, same⟩ := List.mem_filterMap.mp mem
  cases op with
  | store op => cases same
  | chain op => cases same
  | execute effect =>
    have own := isolated.executes effect before reply called
    rw [show effect.settlementId = 2 from Option.some.inj same] at own
    exact absurd own (by decide)

end Example

end DomProtocol.Settlement
