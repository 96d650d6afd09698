import DomProtocol.Core

/-! # The settlement machine (`kaystra-core`, `state.rs`)

A settlement swaps value between the DOM chain and a second chain. Its **`SettlementContext`** is
moved by **`SettlementEvent`**s through the pure function **`transition`**, which returns the next
context and the **`Effect`**s to enqueue, or a `TransitionError`. `Settled` and `Refunded` are
terminal: no event leaves them.

The revision of a context counts accepted transitions and takes no part in a reaction
(`react_revision`). What a context says economically is its **`projection`**. -/

namespace DomProtocol.Settlement

/-! ## Vocabulary -/

/-- 32-byte digest or registry entry. -/
abbrev Digest32 := Octets 32

/-- Public settlement identifier. -/
abbrev SettlementId := Octets 32

/-- Public signing-session identifier. -/
abbrev SessionId := Octets 32

/-- Chain registry identifier. -/
abbrev ChainId := Octets 32

/-- Settlement states. -/
inductive SettlementState where
  | preparing
  | readyToFund
  | confirming
  | settling
  | settled
  | refunded
  deriving DecidableEq, Repr

/-- Terminal economic states. -/
def SettlementState.isTerminal : SettlementState → Bool
  | settled | refunded => true
  | _ => false

/-- Reference to one verifiable piece of public on-chain evidence. -/
structure EvidenceRef where
  chainId : ChainId
  txId : Digest32
  eventIndex : UInt32
  blockHeight : UInt64
  blockAnchor : Digest32
  deriving DecidableEq, Repr

/-- Events accepted by the machine. -/
inductive SettlementEvent where
  | refundArmed
  | fundingObserved (evidence : EvidenceRef)
  | fundingConfirmed (evidence : EvidenceRef)
  | fundingAbsent (revalidationFrom : UInt64)
  | claimEvidenceVerified (evidence : EvidenceRef)
  | claimConfirmed (evidence : EvidenceRef)
  | timelockExpired
  | refundConfirmed (evidence : EvidenceRef)
  | reorgInvalidated (fromHeight : UInt64) (oldAnchor : Digest32)
  deriving DecidableEq, Repr

/-- The evidence an event carries. -/
def acceptedEvidence : SettlementEvent → Option EvidenceRef
  | .fundingObserved evidence => some evidence
  | .fundingConfirmed evidence => some evidence
  | .claimEvidenceVerified evidence => some evidence
  | .claimConfirmed evidence => some evidence
  | .refundConfirmed evidence => some evidence
  | _ => none

/-- Persisted settlement context. -/
structure SettlementContext where
  state : SettlementState
  revision : UInt64
  lastObservedHeight : Option UInt64
  claimEvidenceVerified : Bool
  refundPathArmed : Bool
  deriving DecidableEq, Repr

/-- The initial context. -/
def SettlementContext.new : SettlementContext := ⟨.preparing, 0, none, false, false⟩

/-- Effects enqueued after a transition commits. -/
inductive Effect where
  | authorizeFunding
  | requestClaimConsumption (evidence : EvidenceRef)
  | armRefundPath
  | revalidateFrom (height : UInt64)
  | recordTerminalOutcome (state : SettlementState)
  deriving DecidableEq, Repr

/-- Result of an accepted transition. -/
structure Transition where
  next : SettlementContext
  effects : List Effect
  deriving DecidableEq, Repr

/-- Transition errors. -/
inductive TransitionError where
  | illegalEvent
  | terminalState
  | preconditionUnsatisfied
  | evidenceMismatch
  | revisionOverflow
  deriving DecidableEq, Repr

/-! ## The transition function -/

/-- A reorg from a height reaches the last observation. -/
def SettlementContext.affected (ctx : SettlementContext) (fromHeight : UInt64) : Bool :=
  match ctx.lastObservedHeight with
  | some height => fromHeight ≤ height
  | none => false

/-- The reaction of a context that is not terminal, its revision apart. -/
def react (ctx : SettlementContext) : SettlementEvent → Except TransitionError Transition
  | .refundArmed =>
    match ctx.state with
    | .preparing =>
      .ok ⟨{ ctx with state := .readyToFund, refundPathArmed := true }, [.authorizeFunding]⟩
    | _ => .error .illegalEvent
  | .fundingObserved evidence =>
    match ctx.state with
    | .readyToFund =>
      .ok ⟨{ ctx with state := .confirming, lastObservedHeight := some evidence.blockHeight },
        []⟩
    -- a second observation only refreshes the height
    | .confirming => .ok ⟨{ ctx with lastObservedHeight := some evidence.blockHeight }, []⟩
    | _ => .error .illegalEvent
  | .fundingAbsent _ =>
    match ctx.state with
    | .confirming => .ok ⟨{ ctx with state := .readyToFund, lastObservedHeight := none }, []⟩
    | _ => .error .illegalEvent
  | .fundingConfirmed evidence =>
    match ctx.state with
    | .confirming =>
      if ctx.lastObservedHeight ≠ some evidence.blockHeight then .error .evidenceMismatch
      else .ok ⟨{ ctx with state := .settling }, []⟩
    | _ => .error .illegalEvent
  | .claimEvidenceVerified evidence =>
    match ctx.state with
    | .settling =>
      .ok ⟨{ ctx with claimEvidenceVerified := true }, [.requestClaimConsumption evidence]⟩
    | _ => .error .illegalEvent
  | .claimConfirmed _ =>
    match ctx.state with
    | .settling =>
      if ctx.claimEvidenceVerified = false then .error .preconditionUnsatisfied
      else .ok ⟨{ ctx with state := .settled }, [.recordTerminalOutcome .settled]⟩
    | _ => .error .illegalEvent
  | .timelockExpired =>
    match ctx.state with
    | .confirming | .settling => .ok ⟨{ ctx with refundPathArmed := true }, [.armRefundPath]⟩
    | _ => .error .illegalEvent
  | .refundConfirmed _ =>
    match ctx.state with
    | .confirming | .settling =>
      .ok ⟨{ ctx with state := .refunded }, [.recordTerminalOutcome .refunded]⟩
    | _ => .error .illegalEvent
  | .reorgInvalidated fromHeight _ =>
    match ctx.state with
    | .confirming | .settling =>
      if ctx.affected fromHeight then
        .ok ⟨{ ctx with
            state := if ctx.state = .settling then .confirming else .readyToFund
            lastObservedHeight := none
            claimEvidenceVerified := false }, [.revalidateFrom fromHeight]⟩
      else .ok ⟨ctx, []⟩
    -- before any observation there is nothing to invalidate
    | .preparing | .readyToFund => .ok ⟨ctx, []⟩
    | _ => .error .illegalEvent

/-- **The pure transition function.** -/
def transition (ctx : SettlementContext) (event : SettlementEvent) :
    Except TransitionError Transition := do
  rejectIf (ctx.state.isTerminal = true) .terminalState
  let revision ← okOr .revisionOverflow (checkedAdd ctx.revision 1)
  react { ctx with revision := revision } event

/-! ## What the machine does -/

/-- Everything a context says except the number of transitions it took. -/
def SettlementContext.projection (ctx : SettlementContext) :
    SettlementState × Option UInt64 × Bool × Bool :=
  (ctx.state, ctx.lastObservedHeight, ctx.claimEvidenceVerified, ctx.refundPathArmed)

/-- The revision takes no part in a reaction: it is carried over. -/
theorem react_revision (ctx : SettlementContext) (revision : UInt64) (event : SettlementEvent) :
    react { ctx with revision := revision } event =
      (react ctx event).map fun t => ⟨{ t.next with revision := revision }, t.effects⟩ := by
  obtain ⟨state, _, height, verified, armed⟩ := ctx
  cases event with
  | fundingConfirmed evidence | claimConfirmed evidence =>
    cases state <;> simp only [react, Except.map]
    split <;> rfl
  | reorgInvalidated fromHeight oldAnchor =>
    -- whether the observation is affected does not depend on the revision either
    have haffected : ∀ revision',
        SettlementContext.affected ⟨state, revision', height, verified, armed⟩ fromHeight =
          SettlementContext.affected ⟨state, revision, height, verified, armed⟩ fromHeight :=
      fun _ => rfl
    cases state <;> simp only [react, Except.map, haffected]
    all_goals split <;> rfl
  | _ => cases state <;> rfl

variable {ctx : SettlementContext} {event : SettlementEvent} {t : Transition}

/-- **An accepted transition** starts from a context that is not terminal, counts one revision, and
is the reaction to the event. -/
theorem transition_eq_ok :
    transition ctx event = .ok t ↔
      ctx.state.isTerminal = false ∧ ctx.revision.toNat + 1 < 2 ^ 64 ∧
        ∃ u, react ctx event = .ok u ∧
          t = ⟨{ u.next with revision := ctx.revision + 1 }, u.effects⟩ := by
  have hmap : ∀ revision, react { ctx with revision := revision } event = .ok t ↔
      ∃ u, react ctx event = .ok u ∧ t = ⟨{ u.next with revision := revision }, u.effects⟩ := by
    intro revision
    rw [react_revision]
    cases react ctx event <;> simp [Except.map, eq_comm]
  simp only [transition, bind_eq_ok, rejectIf_eq_ok, okOr_eq_ok, Bool.not_eq_true, hmap]
  have hone : (1 : UInt64).toNat = 1 := rfl
  constructor
  · rintro ⟨-, hterminal, revision, hrevision, u, hu, rfl⟩
    have hlt := revision.toNat_lt
    rw [checkedAdd_eq_some, hone] at hrevision
    have hsum : revision = ctx.revision + 1 := by
      rw [← UInt64.toNat_inj, UInt64.toNat_add, hone, hrevision]
      exact (Nat.mod_eq_of_lt (by omega)).symm
    exact ⟨hterminal, by omega, u, hu, by rw [hsum]⟩
  · rintro ⟨hterminal, hfits, u, hu, rfl⟩
    refine ⟨(), hterminal, ctx.revision + 1, ?_, u, hu, rfl⟩
    rw [checkedAdd_eq_some, UInt64.toNat_add, hone]
    exact Nat.mod_eq_of_lt hfits

/-- The next revision of an accepted transition. -/
theorem transition_revision
    (accepted : transition ctx event = .ok t) : t.next.revision = ctx.revision + 1 := by
  obtain ⟨-, -, u, -, rfl⟩ := transition_eq_ok.mp accepted
  rfl

theorem transition_revision_toNat (accepted : transition ctx event = .ok t) :
    t.next.revision.toNat = ctx.revision.toNat + 1 := by
  obtain ⟨-, hfits, -⟩ := transition_eq_ok.mp accepted
  rw [transition_revision accepted, UInt64.toNat_add]
  exact Nat.mod_eq_of_lt hfits

/-- Funding is authorized by arming the refund only. -/
theorem transition_authorizeFunding (accepted : transition ctx event = .ok t)
    (h : .authorizeFunding ∈ t.effects) :
    event = .refundArmed := by
  obtain ⟨-, -, u, reacted, rfl⟩ := transition_eq_ok.mp accepted
  obtain ⟨state, revision, height, verified, armed⟩ := ctx
  cases event with
  | refundArmed => rfl
  | fundingConfirmed evidence =>
    cases state <;> simp only [react] at reacted <;> try cases reacted
    split at reacted
    · cases reacted
    · cases reacted
      cases h
  | claimConfirmed evidence =>
    cases state <;> simp only [react] at reacted <;> try cases reacted
    split at reacted
    · cases reacted
    · cases reacted
      simp at h
  | reorgInvalidated fromHeight oldAnchor =>
    cases state <;> simp only [react] at reacted <;> try cases reacted
    all_goals try cases h
    all_goals
      split at reacted
      all_goals
        cases reacted
        simp at h
  | _ =>
    cases state <;> simp only [react] at reacted <;> cases reacted <;> simp at h

/-- A terminal context accepts nothing. -/
theorem transition_of_terminal (event : SettlementEvent)
    (terminal : ctx.state.isTerminal = true) : transition ctx event = .error .terminalState := by
  rw [transition, rejectIf_of _ terminal]
  rfl

end DomProtocol.Settlement
