import DomProtocol.Settlement.Machine

/-! # Claim evidence under reorganisations (`kaystra-core`, `state.rs`)

A settlement is `Settled` by a confirmed claim, and a claim is confirmed only after claim evidence
was verified. A reorganisation may remove that evidence: it is **`Backed`** by a history if it was
verified in it and every reorganisation accepted since starts above its block.

The context keeps the height of the funding and one flag for the claim, so a reorganisation above
the funding leaves the flag alone, wherever the claim was mined (`settled_on_removed_claim`).
**`claim_backed_iff`** says which reorganisations a run must not contain. -/

namespace DomProtocol.Settlement

/-! ## Runs and histories -/

/-- **A run of the machine**: the events accepted, oldest first, and the context they lead to. Every
event meets a condition on the history and the context it finds. -/
inductive Run (heeds : List SettlementEvent → SettlementContext → SettlementEvent → Prop) :
    List SettlementEvent → SettlementContext → Prop
  | new : Run heeds [] .new
  | step {history ctx event t} (run : Run heeds history ctx) (heeded : heeds history ctx event)
      (accepted : transition ctx event = .ok t) : Run heeds (history ++ [event]) t.next

/-- **Backed evidence**: it was verified, and every reorganisation accepted since starts above its
block. -/
def Backed (history : List SettlementEvent) (evidence : EvidenceRef) : Prop :=
  ∃ before after, history = before ++ .claimEvidenceVerified evidence :: after ∧
    ∀ fromHeight oldAnchor, .reorgInvalidated fromHeight oldAnchor ∈ after →
      evidence.blockHeight < fromHeight

/-- Evidence is backed when it is verified. -/
theorem backed_verified (history : List SettlementEvent) (evidence : EvidenceRef) :
    Backed (history ++ [.claimEvidenceVerified evidence]) evidence :=
  ⟨history, [], rfl, nofun⟩

variable {history : List SettlementEvent} {evidence : EvidenceRef} {event : SettlementEvent}

/-- Backed evidence stays backed as long as reorganisations start above its block. -/
theorem Backed.snoc (backed : Backed history evidence)
    (above : ∀ fromHeight oldAnchor, event = .reorgInvalidated fromHeight oldAnchor →
      evidence.blockHeight < fromHeight) : Backed (history ++ [event]) evidence := by
  obtain ⟨before, after, rfl, since⟩ := backed
  refine ⟨before, after ++ [event], by simp, ?_⟩
  intro fromHeight oldAnchor mem
  rcases mem_snoc.mp mem with mem | same
  · exact since fromHeight oldAnchor mem
  · exact above fromHeight oldAnchor same.symm

variable {fromHeight : UInt64} {oldAnchor : Digest32}

/-- Evidence backed after a reorganisation was backed before it, and lies below it. -/
theorem Backed.of_reorg
    (backed : Backed (history ++ [.reorgInvalidated fromHeight oldAnchor]) evidence) :
    Backed history evidence ∧ evidence.blockHeight < fromHeight := by
  obtain ⟨before, after, split, since⟩ := backed
  -- the reorganisation is the last event, so it is not the one that verified the evidence
  rcases List.eq_nil_or_concat' after with rfl | ⟨after, last, rfl⟩
  · have last := (List.append_inj' split rfl).2
    cases last
  · have same : history ++ [.reorgInvalidated fromHeight oldAnchor] =
        (before ++ .claimEvidenceVerified evidence :: after) ++ [last] := by simp [split]
    obtain ⟨rfl, hlast⟩ := List.append_inj' same rfl
    obtain rfl := List.singleton_inj.mp hlast
    refine ⟨⟨before, after, rfl, ?_⟩, since fromHeight oldAnchor (by simp)⟩
    intro height anchor mem
    exact since height anchor (List.mem_append_left _ mem)

/-! ## What a reorganisation must heed -/

/-- **What a reorganisation must heed** while claim evidence is verified: it reaches the funding, or
it starts above the block of evidence that is still backed. The counter must have room for the
reorganisation and a confirmation, otherwise nothing can be confirmed any more. -/
def Heeds (history : List SettlementEvent) (ctx : SettlementContext) (event : SettlementEvent) :
    Prop :=
  ∀ fromHeight oldAnchor, event = .reorgInvalidated fromHeight oldAnchor →
    ctx.claimEvidenceVerified = true → ctx.revision.toNat + 2 < 2 ^ 64 →
    ctx.affected fromHeight = true ∨
      ∃ evidence, Backed history evidence ∧ evidence.blockHeight < fromHeight

variable {ctx : SettlementContext}

/-- A confirmed claim is accepted in a settling context whose claim evidence was verified. -/
theorem transition_claimConfirmed :
    (∃ t, transition ctx (.claimConfirmed evidence) = .ok t) ↔
      ctx.state = .settling ∧ ctx.claimEvidenceVerified = true ∧ ctx.revision.toNat + 1 < 2 ^ 64 := by
  simp only [transition_eq_ok, react]
  cases state : ctx.state <;> cases verified : ctx.claimEvidenceVerified <;>
    simp [SettlementState.isTerminal]

variable {t : Transition}

/-- What an event does to the flag: it is raised by verified evidence only, in a settling context,
and a reorganisation that reaches the funding lowers it. -/
theorem verified_of_transition
    (accepted : transition ctx event = .ok t) (raised : t.next.claimEvidenceVerified = true) :
    (∃ evidence, event = .claimEvidenceVerified evidence ∧ t.next.state = .settling) ∨
      (ctx.claimEvidenceVerified = true ∧
        (ctx.state = .settling → t.next.state = .settling ∨ t.next.state.isTerminal = true) ∧
        ∀ fromHeight oldAnchor, event = .reorgInvalidated fromHeight oldAnchor →
          ctx.state = .settling → ctx.affected fromHeight = false) := by
  obtain ⟨-, -, u, reacted, rfl⟩ := transition_eq_ok.mp accepted
  obtain ⟨state, revision, height, verified, armed⟩ := ctx
  cases event with
  | claimEvidenceVerified evidence =>
    cases state <;> cases reacted
    exact .inl ⟨evidence, rfl, rfl⟩
  | fundingConfirmed evidence =>
    cases state <;> simp only [react] at reacted <;> try cases reacted
    split at reacted <;> cases reacted
    exact .inr ⟨raised, by simp, by simp⟩
  | claimConfirmed evidence =>
    cases state <;> simp only [react] at reacted <;> try cases reacted
    split at reacted <;> cases reacted
    exact .inr ⟨raised, fun _ => .inr rfl, by simp⟩
  | reorgInvalidated fromHeight oldAnchor =>
    cases state <;> simp only [react] at reacted <;> try cases reacted
    · exact .inr ⟨raised, by simp, by simp⟩
    · exact .inr ⟨raised, by simp, by simp⟩
    · split at reacted <;> cases reacted
      · cases raised
      · exact .inr ⟨raised, by simp, by simp⟩
    · split at reacted <;> cases reacted
      · cases raised
      · rename_i unaffected
        refine .inr ⟨raised, fun _ => .inl rfl, ?_⟩
        rintro height anchor ⟨⟩ -
        exact Bool.not_eq_true _ ▸ unaffected
  | refundConfirmed evidence =>
    cases state <;> cases reacted
    · exact .inr ⟨raised, by simp, by simp⟩
    · exact .inr ⟨raised, fun _ => .inr rfl, by simp⟩
  | timelockExpired =>
    cases state <;> cases reacted
    · exact .inr ⟨raised, by simp, by simp⟩
    · exact .inr ⟨raised, fun _ => .inl rfl, by simp⟩
  | _ =>
    cases state <;> cases reacted
    all_goals exact .inr ⟨raised, by simp, by simp⟩

/-- A reorganisation that misses the funding of a settling context changes nothing but the count. -/
theorem transition_reorg_unaffected (settling : ctx.state = .settling)
    (unaffected : ctx.affected fromHeight = false)
    (accepted : transition ctx (.reorgInvalidated fromHeight oldAnchor) = .ok t) :
    t.next = { ctx with revision := ctx.revision + 1 } := by
  obtain ⟨-, -, u, reacted, rfl⟩ := transition_eq_ok.mp accepted
  simp only [react, settling, unaffected, Bool.false_eq_true, if_false, Except.ok.injEq] at reacted
  subst reacted
  rfl

/-! ## Confirmed claims are backed -/

/-- **What a heeding run keeps**: verified claim evidence is there in settling and terminal contexts
only, and while an event can still be counted some of it is backed. -/
structure ClaimInvariant (history : List SettlementEvent) (ctx : SettlementContext) : Prop where
  settling : ctx.claimEvidenceVerified = true → ctx.state = .settling ∨ ctx.state.isTerminal = true
  backed : ctx.claimEvidenceVerified = true → ctx.revision.toNat + 1 < 2 ^ 64 →
    ∃ evidence, Backed history evidence

theorem ClaimInvariant.step (invariant : ClaimInvariant history ctx)
    (heeded : Heeds history ctx event) (accepted : transition ctx event = .ok t) :
    ClaimInvariant (history ++ [event]) t.next := by
  have revision := transition_revision_toNat accepted
  have live : ctx.state.isTerminal = false := (transition_eq_ok.mp accepted).1
  have stays : ctx.claimEvidenceVerified = true → ctx.state = .settling := by
    intro verified
    exact (invariant.settling verified).resolve_right (by simp [live])
  constructor
  · intro raised
    rcases verified_of_transition accepted raised with ⟨_, _, settling⟩ | ⟨verified, kept, -⟩
    · exact .inl settling
    · exact kept (stays verified)
  · intro raised room
    rcases verified_of_transition accepted raised with ⟨evidence, rfl, -⟩ | ⟨verified, -, missed⟩
    · exact ⟨evidence, backed_verified history evidence⟩
    · obtain ⟨evidence, backed⟩ := invariant.backed verified (by omega)
      by_cases reorg : ∃ fromHeight oldAnchor, event = .reorgInvalidated fromHeight oldAnchor
      · -- the reorganisation misses the funding, so some backed evidence lies below it
        obtain ⟨fromHeight, oldAnchor, rfl⟩ := reorg
        have unaffected := missed fromHeight oldAnchor rfl (stays verified)
        have below := heeded fromHeight oldAnchor rfl verified (by omega)
        rw [unaffected] at below
        obtain ⟨kept, backed, lower⟩ := below.resolve_left (by decide)
        refine ⟨kept, backed.snoc ?_⟩
        rintro height anchor ⟨⟩
        exact lower
      · refine ⟨evidence, backed.snoc ?_⟩
        intro height anchor same
        exact absurd ⟨height, anchor, same⟩ reorg

theorem Run.claimInvariant (run : Run Heeds history ctx) : ClaimInvariant history ctx := by
  induction run with
  | new => exact ⟨nofun, nofun⟩
  | step run heeded accepted invariant => exact invariant.step heeded accepted

/-- **A claim is confirmed on evidence that is still there** in every run whose reorganisations heed
the condition, and a reorganisation keeps this up exactly if it heeds it. -/
theorem claim_backed_iff {history : List SettlementEvent} {ctx : SettlementContext}
    (run : Run Heeds history ctx) :
    (∀ evidence t, transition ctx (.claimConfirmed evidence) = .ok t →
      ∃ verified, Backed history verified) ∧
    ∀ event t, transition ctx event = .ok t →
      ((∀ evidence u, transition t.next (.claimConfirmed evidence) = .ok u →
        ∃ verified, Backed (history ++ [event]) verified) ↔ Heeds history ctx event) := by
  have invariant := run.claimInvariant
  constructor
  · intro evidence t accepted
    obtain ⟨-, verified, room⟩ := transition_claimConfirmed.mp ⟨t, accepted⟩
    exact invariant.backed verified room
  · intro event t accepted
    constructor
    · rintro backed fromHeight oldAnchor rfl verified room
      by_cases affected : ctx.affected fromHeight = true
      · exact .inl affected
      -- the flag survives, so the claim can be confirmed at once
      have live : ctx.state.isTerminal = false := (transition_eq_ok.mp accepted).1
      have settling := (invariant.settling verified).resolve_right (by simp [live])
      have next := transition_reorg_unaffected settling (Bool.not_eq_true _ ▸ affected) accepted
      have revision := transition_revision_toNat accepted
      have confirmable : ∃ u, transition t.next (.claimConfirmed ⟨0, 0, 0, 0, 0⟩) = .ok u :=
        transition_claimConfirmed.mpr ⟨by rw [next]; exact settling,
          by rw [next]; exact verified, by omega⟩
      obtain ⟨u, confirmed⟩ := confirmable
      obtain ⟨evidence, kept⟩ := backed _ u confirmed
      exact .inr ⟨evidence, kept.of_reorg⟩
    · intro heeded evidence u confirmed
      obtain ⟨-, verified, room⟩ := transition_claimConfirmed.mp ⟨u, confirmed⟩
      exact (invariant.step heeded accepted).backed verified room

/-! ## A claim that was removed -/

section Example

/-- Evidence at a height. -/
def evidenceAt (height : UInt64) : EvidenceRef := ⟨0, 0, 0, height, 0⟩

/-- Funding at height 10 is confirmed and the claim at height 11 is verified. -/
def verifiedClaim : List SettlementEvent :=
  [.refundArmed, .fundingObserved (evidenceAt 10), .fundingConfirmed (evidenceAt 10),
    .claimEvidenceVerified (evidenceAt 11)]

/-- The context after it. -/
def verifiedContext : SettlementContext := ⟨.settling, 4, some 10, true, true⟩

theorem run_verifiedClaim
    {heeds : List SettlementEvent → SettlementContext → SettlementEvent → Prop}
    (quiet : ∀ history ctx event, (∀ fromHeight oldAnchor,
      event ≠ .reorgInvalidated fromHeight oldAnchor) → heeds history ctx event) :
    Run heeds verifiedClaim verifiedContext := by
  have armed : Run heeds [.refundArmed] ⟨.readyToFund, 1, none, false, true⟩ :=
    .step (t := ⟨_, [.authorizeFunding]⟩) .new (quiet [] _ .refundArmed nofun) rfl
  have observed : Run heeds [.refundArmed, .fundingObserved (evidenceAt 10)]
      ⟨.confirming, 2, some 10, false, true⟩ :=
    .step (t := ⟨_, []⟩) armed (quiet _ _ (.fundingObserved (evidenceAt 10)) nofun) rfl
  have confirmed : Run heeds
      [.refundArmed, .fundingObserved (evidenceAt 10), .fundingConfirmed (evidenceAt 10)]
      ⟨.settling, 3, some 10, false, true⟩ :=
    .step (t := ⟨_, []⟩) observed (quiet _ _ (.fundingConfirmed (evidenceAt 10)) nofun) rfl
  exact .step (t := ⟨_, [.requestClaimConsumption (evidenceAt 11)]⟩) confirmed
    (quiet _ _ (.claimEvidenceVerified (evidenceAt 11)) nofun) rfl

/-- Without reorganisations, the claim is backed when it is confirmed. -/
theorem claim_backed_iff_verified : ∃ verified, Backed verifiedClaim verified :=
  (claim_backed_iff (run_verifiedClaim fun _ _ _ quiet fromHeight oldAnchor same =>
    absurd same (quiet fromHeight oldAnchor))).1 (evidenceAt 11) _ rfl

/-- **A settlement is settled on a claim that was removed**: a reorganisation from height 11 takes
the block of the claim, but not that of the funding. -/
theorem settled_on_removed_claim :
    ∃ (history : List SettlementEvent) (ctx : SettlementContext) (evidence : EvidenceRef)
      (t : Transition), Run (fun _ _ _ => True) history ctx ∧
        transition ctx (.claimConfirmed evidence) = .ok t ∧ t.next.state = .settled ∧
        ¬ ∃ verified, Backed history verified := by
  refine ⟨verifiedClaim ++ [.reorgInvalidated 11 0], ⟨.settling, 5, some 10, true, true⟩,
    evidenceAt 11, ⟨⟨.settled, 6, some 10, true, true⟩, [.recordTerminalOutcome .settled]⟩,
    .step (t := ⟨_, []⟩) (run_verifiedClaim fun _ _ _ _ => trivial) trivial rfl, rfl, rfl, ?_⟩
  rintro ⟨verified, backed⟩
  obtain ⟨⟨before, after, split, -⟩, lower⟩ := backed.of_reorg
  have mem : SettlementEvent.claimEvidenceVerified verified ∈ verifiedClaim := by
    rw [split]
    simp
  simp only [verifiedClaim, List.mem_cons, reduceCtorEq, SettlementEvent.claimEvidenceVerified.injEq,
    List.not_mem_nil, or_false, false_or] at mem
  subst mem
  exact absurd lower (by decide)

end Example

end DomProtocol.Settlement
