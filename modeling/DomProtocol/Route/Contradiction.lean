import DomProtocol.Route.TimeRun

/-! # Contradicted routes

Evidence that contradicts the current evidence of a route is to end it for good: once a
contradiction is recorded, no ladder is proved and no capability is consumed again
(`Node.Shows.refuses`).

`installEvidence` checks for a rollback of the observation time before it compares the anchors, and
bounds the history after it has recorded the conflict. **`Recordable`** says when neither gets in
the way, and it is exactly when a contradiction ends the route (`dead_after_contradiction_iff`). -/

namespace DomProtocol.Route

open Settlement (Digest32 SettlementTerms LockMechanism Blake2b)

open Settlement.Blake2b (blake2b256)

/-- **Evidence contradicts earlier evidence**: other contents under its sequence, or a moved anchor or
a tip that does not extend the earlier one under a later sequence. -/
def Contradicts (retained evidence : RouteTimeEvidence) : Prop :=
  (evidence.sequence = retained.sequence ∧ evidence ≠ retained) ∨
    (retained.sequence < evidence.sequence ∧
      (¬ sameFrozenAnchors retained evidence ∨ ¬ tipsExtend retained evidence))

section Contradiction

variable [Blake2b] [Secp]

/-- **A contradiction is presented** to an open store: under its context, its policy in force and
its active current evidence, correctly signed and fresh. -/
structure Store.Presented (s : Store) (signed : SignedRouteTimeEvidence)
    (context : EvidenceContext) (now : UInt64) (policy : PolicyRow) (row : EvidenceRow) :
    Prop where
  accepted : s.validateContext context = .ok ()
  bound : s.db.policy = some policy
  inForce : policy.signed.verify context.policy now = .ok policy.signed.policy
  fresh : signed.verify context.evidenceAuthorities policy.signed.policy now = .ok signed.evidence
  canonical : signed.canonicalBytes = .ok signed
  current : s.db.current = some row
  active : row.status = .active
  authentic : row.signed.verifyAuthenticity context.evidenceAuthorities policy.signed.policy =
    .ok row.signed.evidence
  contradicts : Contradicts row.signed.evidence signed.evidence

/-- **When a contradiction is recorded**: it is no rollback of the observation time, the history has
room, the clock has not run ahead of the call, and its digest is new. -/
def Recordable (db : Db) (row : EvidenceRow) (evidence : RouteTimeEvidence) (now : UInt64) : Prop :=
  (evidence.sequence = row.sequence ∨ row.observedAt < evidence.observedAtSeconds) ∧
    db.history.length < maxHistoryRows ∧ db.clockHighWater ≤ now ∧
    ∀ old ∈ db.history, old.digest ≠ evidence.evidenceDigest

/-- The route of a database is dead. -/
def Db.Dead (db : Db) : Prop := ∃ row ∈ db.current, row.status = .invalidated

/-- **A store refuses**: it neither proves a ladder nor lets a capability be consumed. -/
structure Store.Refuses (s : Store) : Prop where
  prove : ∀ context now proof, (s.proveRouteLadder context now).1 ≠ .ok proof
  consume : ∀ proof now capability, (s.consumeCapabilityAt proof now).1 ≠ .ok capability
  resume : ∀ checkpoint context now capability,
    (s.proveCurrentRouteLadderFromCheckpoint checkpoint context now).1 ≠ .ok capability

/-! ## A recorded contradiction is final -/

/-- **A dead route is refused.** -/
theorem Db.Dead.refuses {s : Store} (dead : s.db.Dead) : s.Refuses := by
  obtain ⟨row, present, invalidated⟩ := dead
  have inactive : ¬ ∃ row ∈ s.db.current, row.status = .active := by
    rintro ⟨row', present', active⟩
    obtain rfl := Option.some.inj (present.symm.trans present')
    rw [invalidated] at active
    cases active
  have prove : ∀ context now proof, (s.proveRouteLadder context now).1 ≠ .ok proof := by
    intro context now proof proved
    obtain ⟨-, -, -, row', -, present', active, -⟩ :=
      Store.proveRouteLadder_eq_ok (Prod.ext proved rfl)
    exact inactive ⟨row', present', active⟩
  refine ⟨prove, ?_, ?_⟩
  · intro proof now capability consumed
    obtain ⟨-, -, -, row', present', active⟩ :=
      Store.consumeCapabilityAt_eq_ok (Prod.ext consumed rfl)
    exact inactive ⟨row', present', active⟩
  · intro checkpoint context now capability
    unfold Store.proveCurrentRouteLadderFromCheckpoint
    split
    · exact fun h => by cases h
    · split
      · exact fun h => by cases h
      · rename_i proof left proved
        exact absurd (congrArg Prod.fst proved) (prove context now proof)

omit [Secp] in
theorem Db.Shows.dead_iff {db : Db} {t : Timeline EvidenceRow} (timeline : db.Shows t) :
    db.Dead ↔ t.IsDead := by
  cases t with
  | fresh =>
    refine ⟨?_, False.elim⟩
    rintro ⟨row, present, -⟩
    rw [timeline.current] at present
    cases present
  | live older last =>
    refine ⟨?_, False.elim⟩
    rintro ⟨row, present, invalidated⟩
    obtain rfl := Option.some.inj (timeline.current.symm.trans present)
    rw [timeline.statuses.1 last (by simp [Timeline.admitted])] at invalidated
    cases invalidated
  | dead older last conflict => exact ⟨fun _ => trivial, fun _ => ⟨_, timeline.current, rfl⟩⟩

/-- **In every run a dead route stays dead**, through crashes and restarts. -/
theorem Node.Shows.refuses {n n' : Node} {t : Timeline EvidenceRow} (timeline : n.Shows t)
    (dead : n.db.Dead) (run : Run n n') {s : Store} (running : n' = .running s) : s.Refuses := by
  obtain ⟨t', grown, shown, -⟩ := run.refines timeline
  have ended := timeline.db.dead_iff.mp dead
  obtain rfl := Timeline.eq_of_grown_of_dead grown ended
  subst running
  exact (shown.db.dead_iff.mpr ended).refuses

/-! ## When a contradiction is recorded -/

/-- The comparison with an authentic, active and reconciled row. -/
theorem Db.compareEvidence_eq {db : Db} {row : EvidenceRow} {policy : PolicyRow}
    {authorities : AuthoritySet} {policyDigest : Digest32} {signed : SignedRouteTimeEvidence}
    (sound : row.Sound policy) (pinned : policy.signed.policy.policyDigest = .ok policy.digest)
    (authentic : row.signed.verifyAuthenticity authorities policy.signed.policy =
      .ok row.signed.evidence) (active : row.status = .active) (differs : row.signed ≠ signed) :
    db.compareEvidence row authorities policy.signed.policy policyDigest signed =
      if signed.evidence.sequence = row.sequence then do
        let db ← db.persistConflictAndInvalidate signed policyDigest
        pure ⟨.error .evidenceRollback, db⟩
      else if signed.evidence.sequence < row.sequence ∨
          signed.evidence.observedAtSeconds ≤ row.observedAt then
        .error .evidenceRollback
      else if ¬ sameFrozenAnchors row.signed.evidence signed.evidence ∨
          ¬ tipsExtend row.signed.evidence signed.evidence then do
        let db ← db.persistConflictAndInvalidate signed policyDigest
        pure ⟨.error .anchorReorged, db⟩
      else db.appendEvidence signed policyDigest := by
  have columns := sound.columns
  have digest := (RouteTimeEvidence.policyDigest_of_validateAt sound.valid pinned).1
  have sequence : row.sequence = row.signed.evidence.sequence := by rw [columns]; rfl
  have observed : row.observedAt = row.signed.evidence.observedAtSeconds := by rw [columns]; rfl
  have reconciled : reconcileEvidenceRow row row.signed.evidence = .ok () := by
    rw [reconcileEvidenceRow, rejectIf_eq_ok, columns]
    simp [evidenceRow, digest]
  simp only [compareEvidence, sound.decodes, active, sequence, observed, ok_bind, authentic,
    reconciled, rejectIf_of_not _ (not_not.mpr rfl), differs, and_false, if_false]
  rfl

namespace Store.Presented

variable {s : Store} {signed : SignedRouteTimeEvidence} {context : EvidenceContext} {now : UInt64}
  {policy : PolicyRow} {row : EvidenceRow} {t : Timeline EvidenceRow}

variable (presented : s.Presented signed context now policy row)
include presented

/-- The current row is sound. -/
theorem sound (timeline : s.db.Shows t) : row.Sound policy :=
  timeline.rows policy presented.bound row (timeline.mem_of_active presented.current presented.active)

/-- The transaction that receives the contradiction compares it with the current row. -/
theorem evidenceTransaction_eq (current : s.Current) (timeline : s.db.Shows t) :
    Store.evidenceTransaction signed context now s =
      s.db.compareEvidence row context.evidenceAuthorities policy.signed.policy policy.digest
        signed := by
  have sound := timeline.policy policy presented.bound
  have opening : s.requireCurrentOpening = .ok () := by
    rw [requireCurrentOpening, rejectIf_eq_ok]
    exact not_not.mpr current.openingEpoch
  have bounded : s.db.enforceHistoryBound = .ok () :=
    Db.enforceHistoryBound_eq_ok.mpr timeline.bounded
  simp only [evidenceTransaction, Db.loadPolicy, presented.bound, okOr_some, ok_bind,
    sound.decodes, presented.inForce, presented.fresh, presented.canonical, sound.digest, opening,
    bounded, presented.current]

/-- **The outcome of the comparison** with a contradiction: it is recorded unless the observation
time is rolled back. -/
theorem compareEvidence_contradiction (timeline : s.db.Shows t) :
    (signed.evidence.sequence = row.sequence ∨
        row.observedAt < signed.evidence.observedAtSeconds) ∧
      (∃ e, s.db.compareEvidence row context.evidenceAuthorities policy.signed.policy policy.digest
        signed = (do
          let db ← s.db.persistConflictAndInvalidate signed policy.digest
          pure ⟨.error e, db⟩)) ∨
    ¬ (signed.evidence.sequence = row.sequence ∨
        row.observedAt < signed.evidence.observedAtSeconds) ∧
      s.db.compareEvidence row context.evidenceAuthorities policy.signed.policy policy.digest
        signed = .error .evidenceRollback := by
  have sound := presented.sound timeline
  have sequence : row.signed.evidence.sequence = row.sequence := by rw [sound.columns]; rfl
  have differs : row.signed ≠ signed := by
    intro same
    rcases presented.contradicts with ⟨-, other⟩ | ⟨later, -⟩
    · exact other (congrArg SignedRouteTimeEvidence.evidence same.symm)
    · rw [same] at later
      exact UInt64.lt_irrefl _ later
  rw [Db.compareEvidence_eq sound (timeline.policy policy presented.bound).digest presented.authentic
    presented.active differs]
  by_cases equal : signed.evidence.sequence = row.sequence
  · rw [if_pos equal]
    exact .inl ⟨.inl equal, _, rfl⟩
  obtain ⟨later, moved⟩ : row.signed.evidence.sequence < signed.evidence.sequence ∧
      (¬ sameFrozenAnchors row.signed.evidence signed.evidence ∨
        ¬ tipsExtend row.signed.evidence signed.evidence) := by
    rcases presented.contradicts with ⟨same, -⟩ | later
    · exact absurd (same.trans sequence) equal
    · exact later
  rw [sequence] at later
  rw [if_neg equal]
  by_cases observed : row.observedAt < signed.evidence.observedAtSeconds
  · rw [if_neg (not_or.mpr ⟨UInt64.not_lt.mpr (UInt64.le_of_lt later),
      UInt64.not_le.mpr observed⟩), if_pos moved]
    exact .inl ⟨.inr observed, _, rfl⟩
  · rw [if_pos (.inr (UInt64.not_lt.mp observed))]
    exact .inr ⟨not_or.mpr ⟨equal, observed⟩, rfl⟩

end Store.Presented

variable {db : Db} {signed : SignedRouteTimeEvidence} {row : EvidenceRow} {t : Timeline EvidenceRow}
  {policy : PolicyRow} {s : Store} {now : UInt64}

omit [Secp] in
theorem dead_persisted {db' : Db} {digest : Digest32} (present : db.current = some row)
    (recorded : db.persistConflictAndInvalidate signed digest = .ok db') : db'.Dead := by
  obtain ⟨-, -, -, -, rfl⟩ := Db.persistConflictAndInvalidate_eq_ok.mp recorded
  refine ⟨{ row with status := .invalidated }, ?_, rfl⟩
  rw [present]
  rfl

omit [Secp] in
/-- A contradiction is persisted if the history has room and its digest is new. -/
theorem Db.Shows.persists_iff (timeline : db.Shows t)
    (signed : SignedRouteTimeEvidence) (bound : db.policy = some policy) :
    (∃ db', db.persistConflictAndInvalidate signed policy.digest = .ok db') ↔
      db.history.length < maxHistoryRows ∧
        ∀ old ∈ db.history, old.digest ≠ signed.evidence.evidenceDigest := by
  simp only [Db.persistConflictAndInvalidate_eq_ok]
  constructor
  · rintro ⟨_, new, _, -, room, -⟩
    exact ⟨room, new⟩
  · rintro ⟨room, new⟩
    have count := timeline.revision (by simp [bound])
    have next : checkedAdd db.revision 1 = some (UInt64.ofNat (db.revision.toNat + 1)) := by
      have fits : db.revision.toNat + 1 < UInt64.size := by
        rw [count]
        exact (Nat.add_lt_add_right (Nat.add_lt_add_right room 1) 1).trans (by decide)
      rw [checkedAdd_eq_some, UInt64.toNat_ofNat_of_lt' fits]
      rfl
    exact ⟨_, new, _, next, room, rfl⟩

omit [Blake2b] [Secp] in
/-- A call whose checks pass and whose clock is not behind does what its transaction does. -/
theorem Store.transact_eq {α : Type} {clocked : Store} {check : Except RouteTimeError Unit}
    (body : Store → Except RouteTimeError (Committed α)) (checked : check = .ok ())
    (advanced : s.advanceClockDurably now = .ok clocked) :
    s.transact check now body = match body clocked with
      | .error e => (.error e, clocked)
      | .ok committed => (committed.answer, { clocked with db := committed.db }) := by
  subst checked
  cases ran : body clocked <;> simp only [transact, advanced, ran]

/-- **The database after a presented contradiction** is dead exactly if it was recordable. -/
theorem Store.Presented.dead_iff
    {context : EvidenceContext} (presented : s.Presented signed context now policy row)
    (current : s.Current) (timeline : s.db.Shows t) :
    (s.installEvidence signed context now).2.db.Dead ↔ Recordable s.db row signed.evidence now := by
  have alive : ¬ s.db.Dead := by
    rintro ⟨row', present, invalidated⟩
    obtain rfl := Option.some.inj (presented.current.symm.trans present)
    rw [presented.active] at invalidated
    cases invalidated
  by_cases behind : s.db.clockHighWater ≤ now
  · -- The clock advances, and the transaction compares the contradiction with the current row.
    let clocked : Store := { s with db := { s.db with clockHighWater := now } }
    have advanced : s.advanceClockDurably now = .ok clocked :=
      advanceClockDurably_eq_ok.mpr ⟨current.openingEpoch, behind, rfl⟩
    have presented' : clocked.Presented signed context now policy row := { presented with }
    have shows' : clocked.db.Shows t := { timeline with }
    rw [installEvidence, transact_eq _ presented.accepted advanced,
      presented'.evidenceTransaction_eq ⟨current.pins, current.openingEpoch⟩ shows']
    rcases presented'.compareEvidence_contradiction shows' with ⟨forward, e, compared⟩ |
      ⟨backward, compared⟩
    · rw [compared]
      have persists := shows'.persists_iff signed presented.bound
      cases recorded : clocked.db.persistConflictAndInvalidate signed policy.digest with
      | ok db' =>
        obtain ⟨room, new⟩ := persists.mp ⟨db', recorded⟩
        exact ⟨fun _ => ⟨forward, room, behind, new⟩,
          fun _ => dead_persisted presented'.current recorded⟩
      | error refusal =>
        refine ⟨fun dead => absurd dead alive, fun recordable => ?_⟩
        obtain ⟨db', persisted⟩ := persists.mpr ⟨recordable.2.1, recordable.2.2.2⟩
        rw [recorded] at persisted
        cases persisted
    · rw [compared]
      exact ⟨fun dead => absurd dead alive, fun recordable => absurd recordable.1 backward⟩
  · have unchanged : (s.installEvidence signed context now).2 = s := by
      rcases s.transact_cases (s.validateContext context) now
        (evidenceTransaction signed context now) with ⟨e, ran⟩ | ⟨clocked, -, advanced, -⟩
      · exact congrArg Prod.snd ran
      · exact absurd (advanceClockDurably_eq_ok.mp advanced).2.1 behind
    rw [unchanged]
    exact ⟨fun dead => absurd dead alive, fun recordable => absurd recordable.2.2.1 behind⟩

/-- **A presented contradiction ends the route exactly when it is recordable**, and then the store
refuses in every later state of every run. -/
theorem dead_after_contradiction_iff {s : Store} {signed : SignedRouteTimeEvidence}
    {context : EvidenceContext} {now : UInt64} {policy : PolicyRow} {row : EvidenceRow}
    (reachable : Reachable (.running s))
    (presented : s.Presented signed context now policy row) :
    ((s.installEvidence signed context now).2.db.Dead ↔
        Recordable s.db row signed.evidence now) ∧
      (Recordable s.db row signed.evidence now →
        ∀ n, Run (.running (s.installEvidence signed context now).2) n →
          ∀ s', n = .running s' → s'.Refuses) := by
  obtain ⟨t, timeline⟩ := reachable.shows
  have current := timeline.current s rfl
  have outcome := presented.dead_iff current timeline.db
  refine ⟨outcome, fun recordable n run s' running => ?_⟩
  have left : Step (.running s) (.running (s.installEvidence signed context now).2) :=
    .called s _ (.installEvidence signed context now) (by simp [Call.ends, Call.run])
  obtain ⟨t', -, shown, -⟩ := left.refines timeline
  exact shown.refuses (outcome.mpr recordable) run running

end Contradiction

/-! ## A route that outlives a contradiction -/

section Example

/-- A hash for the example. It reads one octet, which is the last one of the sequence if the octets
are those of evidence. -/
@[reducible] def sequenceHash : Blake2b where
  blake2b256 octets := BitVec.ofNat _ (1 + (octets.getD 118 0).toNat)

/-- A signature scheme for the example, which accepts everything. -/
@[reducible] def openSecp : Secp where
  validateXonlyKey _ := true
  verifyBip340 _ _ _ := true

attribute [local instance] sequenceHash openSecp

namespace ExampleRoute

def timing : ChainTimingBounds := ⟨1, 2, 1, 1, 1⟩

def finality : Settlement.FinalityPolicy := ⟨1, 1⟩

def manifest : RegistryManifest where
  networkId := 1
  epoch := 1
  validFrom := 0
  expiresAt := 9000
  dom := {
    chainId := 1, genesisHash := 1, network := .regtest, consensusRulesDigest := 1
    scriptlessApiVersion := 1, timing, finality, nativeAsset := 1 }
  chains := [
    { chainId := 2, kind := .bitcoin, timing, finality, profileDigest := some 1
      deployment := .bitcoin 1 },
    { chainId := 3, kind := .monero false, timing, finality, profileDigest := some 1
      deployment := .monero 1 }]
  assets := []

def registry : ResolvedRegistry := ⟨manifest, 1⟩

/-- The terms of one settlement: its number, its counterparty leg and the height of its deadlines. -/
def terms (id : Octets 32) (chain : Octets 32) (mechanism : LockMechanism) (height : UInt64) :
    SettlementTerms :=
  { Settlement.exampleTerms id with
    domLeg := { Settlement.exampleLeg .dom with
      chainId := 1, assetId := 1, deadline := .blockHeight height, finality
      adapterProfileHash := domProfileDigest manifest }
    counterpartyLeg := { Settlement.exampleLeg .counterparty with
      chainId := chain, mechanism, deadline := .blockHeight height, finality
      adapterProfileHash := 1 } }

def upstream : SettlementTerms := terms 1 2 .schnorrAdaptor 9000

def downstream : SettlementTerms := terms 2 3 .crossCurveSharedSpend 1000

def authorities : AuthoritySet := ⟨1, [1]⟩

def signatures : List TimeAnchorSignature := [⟨0, 1⟩]

def context : EvidenceContext := ⟨⟨authorities, registry, upstream, downstream⟩, authorities⟩

def limits : RouteTimePolicyLimits := ⟨1, 5000, 1000, 10, 1000, 10, 1000, 1000, 100, 100⟩

/-- The binding of one checkpoint. -/
def binding (role : CheckpointRole) (clockKind : ClockKind) (chainId profileDigest : Octets 32) :
    CheckpointBinding where
  role := role
  clockKind := clockKind
  chainId := chainId
  genesisHash := 1
  profileDigest := profileDigest
  timing := timing
  finality := finality

def policy : RouteTimePolicy where
  nativeDomXmr := false
  networkId := 1
  registryDigest := 1
  registryEpoch := 1
  upstreamTermsHash :=
    blake2b256 (utf8 "DOM-INTEROP/SETTLEMENT-TERMS/V1\x00" ++ upstream.encodeUnchecked)
  downstreamTermsHash :=
    blake2b256 (utf8 "DOM-INTEROP/SETTLEMENT-TERMS/V1\x00" ++ downstream.encodeUnchecked)
  routeScopeDigest := blake2b256 (utf8 "DOM-INTEROP/ROUTE-TIME-SCOPE/V2\x00" ++
    lengthPrefixed upstream.encodeUnchecked ++ lengthPrefixed downstream.encodeUnchecked)
  limits := limits
  checkpoints := {
    hub := binding .hub .domHeight 1 (domProfileDigest manifest)
    upstream := binding .upstreamCounterparty .bitcoin 2 1
    downstream := binding .downstreamCounterparty .monero 3 1 }

def policyDigest : Digest32 :=
  blake2b256 (utf8 "DOM-INTEROP/ROUTE-TIME-POLICY/V2\x00" ++ policy.encode)

def signedPolicy : SignedRouteTimePolicy := ⟨policy, signatures⟩

/-- A checkpoint of a binding, with the hash of its anchor. -/
def checkpoint (binding : CheckpointBinding) (anchorHash : Digest32) : CanonicalTimeCheckpoint where
  role := binding.role
  clockKind := binding.clockKind
  chainId := binding.chainId
  genesisHash := binding.genesisHash
  profileDigest := binding.profileDigest
  anchorHeight := 100
  anchorHash := anchorHash
  parentHash := 1
  timeLowerSeconds := 1000
  timeUpperSeconds := 1001
  canonicalTipHeight := 101
  canonicalTipHash := 2
  canonicalityEvidenceDigest := 1

/-- Evidence with a sequence, the hash of its hub anchor and the second of its observation. -/
def signedEvidence (sequence : UInt64) (anchorHash : Digest32) (observedAt : UInt64) :
    SignedRouteTimeEvidence where
  evidence := {
    policyDigest := policyDigest
    routeScopeDigest := policy.routeScopeDigest
    sequence := sequence
    observedAtSeconds := observedAt
    expiresAtSeconds := 1500
    checkpoints := {
      hub := checkpoint policy.checkpoints.hub anchorHash
      upstream := checkpoint policy.checkpoints.upstream 1
      downstream := checkpoint policy.checkpoints.downstream 1 } }
  signatures := signatures

def config : StoreConfig where
  networkId := 1
  registryDigest := 1
  routeScopeDigest := policy.routeScopeDigest
  policyAuthoritySetDigest := blake2b256 (utf8 "DOM-INTEROP/ROUTE-TIME-AUTHORITY-SET/V2\x00" ++
    beBytes 2 1 ++ beBytes 2 1 ++ [(1 : Octets 32)].flatMap Octets.toList)
  evidenceAuthoritySetDigest := blake2b256 (utf8 "DOM-INTEROP/ROUTE-TIME-AUTHORITY-SET/V2\x00" ++
    beBytes 2 1 ++ beBytes 2 1 ++ [(1 : Octets 32)].flatMap Octets.toList)

/-- The new store. -/
def created : Store := ⟨Db.created config, config, 1⟩

/-- The store with its policy. -/
def bound : Store := (Call.installPolicy signedPolicy context.policy 1001).run created

/-- The store with its first evidence. -/
def current : Store := (Call.installEvidence (signedEvidence 1 1 1000) context 1001).run bound

/-- The row of the policy. -/
def policyRow : PolicyRow := ⟨policyDigest, signedPolicy⟩

/-- The row of the first evidence. -/
def firstRow : EvidenceRow := evidenceRow (signedEvidence 1 1 1000) policyDigest .active

/-- The store, and the checks of the example, computed. -/
theorem current_eq : (current.db.policy = some policyRow ∧ current.db.current = some firstRow ∧
    current.db.history = [firstRow] ∧ current.db.clockHighWater = 1001) ∧
    (config.validate = .ok () ∧ validateSignatureShape signatures = .ok () ∧
      current.validateContext context = .ok () ∧
      signedPolicy.verify context.policy 1002 = .ok policy ∧
      (signedEvidence 1 1 1000).verifyAuthenticity authorities policy =
        .ok (signedEvidence 1 1 1000).evidence) ∧
    ([1000, 1001].all fun observedAt =>
      (signedEvidence 2 2 observedAt).verify authorities policy 1002 =
          .ok (signedEvidence 2 2 observedAt).evidence ∧
        ¬ sameFrozenAnchors (signedEvidence 1 1 1000).evidence
          (signedEvidence 2 2 observedAt).evidence) = true ∧
    firstRow.digest ≠ (signedEvidence 2 2 1001).evidence.evidenceDigest ∧
    (match (current.installEvidence (signedEvidence 2 2 1000) context 1002).2.proveRouteLadder
        context 1002 with
      | (.ok proof, left) => (left.consumeCapabilityAt proof 1002).1.toOption.isSome
      | (.error _, _) => false) = true := by
  decide +kernel

theorem reachable_current : Reachable (.running current) := by
  refine ⟨config, created, bind_eq_ok.mpr ⟨(), current_eq.2.1.1, rfl⟩, ?_⟩
  have first : Step (.running created) (.running bound) :=
    .called created bound (.installPolicy signedPolicy context.policy 1001)
      (by simp [Call.ends, bound])
  have second : Step (.running bound) (.running current) :=
    .called bound current (.installEvidence (signedEvidence 1 1 1000) context 1001)
      (by simp [Call.ends, current])
  exact (Relation.ReflTransGen.single first).tail second

/-- Second evidence of the example that moves the hub anchor is presented to the store. -/
theorem presented (observedAt : UInt64) (mem : observedAt ∈ [(1000 : UInt64), 1001]) :
    current.Presented (signedEvidence 2 2 observedAt) context 1002 policyRow firstRow := by
  obtain ⟨⟨policyRow, evidenceRow, -, -⟩, ⟨-, shape, accepted, inForce, authentic⟩, second, -⟩ :=
    current_eq
  obtain ⟨fresh, moved⟩ := of_decide_eq_true (List.all_eq_true.mp second observedAt mem)
  exact {
    accepted := accepted
    bound := policyRow
    inForce := inForce
    fresh := fresh
    canonical := SignedRouteTimeEvidence.canonicalBytes_eq_ok.mpr ⟨shape, rfl⟩
    current := evidenceRow
    active := rfl
    authentic := authentic
    contradicts := .inr ⟨UInt64.lt_iff_toNat_lt.mpr (Nat.lt_succ_self 1), .inl moved⟩ }

end ExampleRoute

open ExampleRoute

/-- The same contradiction, observed one second later, is recorded: the store refuses. -/
theorem dead_after_contradiction_iff_later :
    (current.installEvidence (signedEvidence 2 2 1001) context 1002).2.Refuses := by
  have presented := ExampleRoute.presented 1001 (by simp)
  refine (dead_after_contradiction_iff reachable_current presented).2 ?_ _ .refl _ rfl
  obtain ⟨⟨-, -, history, clock⟩, -, -, digest, -⟩ := current_eq
  refine ⟨.inr (by decide), ?_, ?_, ?_⟩
  · rw [history]
    decide
  · rw [clock]
    decide
  · rw [history]
    exact List.forall_mem_singleton.mpr digest

/-- **A contradiction that leaves no trace**: the second evidence moves the hub anchor but was
observed at the second of the first, so it is refused as a rollback. The route keeps issuing ladder
proofs, and their capabilities are consumed. -/
theorem contradiction_not_recorded : ∃ (s : Store) (signed : SignedRouteTimeEvidence)
    (context : EvidenceContext) (now : UInt64) (policy : PolicyRow) (row : EvidenceRow),
    Reachable (.running s) ∧ s.Presented signed context now policy row ∧
      ∃ proof left capability,
        (s.installEvidence signed context now).2.proveRouteLadder context now = (.ok proof, left) ∧
        (left.consumeCapabilityAt proof now).1 = .ok capability := by
  have presented := ExampleRoute.presented 1000 (by simp)
  have runs := current_eq.2.2.2.2
  refine ⟨current, _, context, 1002, policyRow, firstRow, reachable_current, presented, ?_⟩
  split at runs
  · rename_i proof left proved
    cases consumed : (left.consumeCapabilityAt proof 1002).1 with
    | ok capability => exact ⟨proof, left, capability, proved, consumed⟩
    | error e =>
      rw [consumed] at runs
      cases runs
  · cases runs

end Example

end DomProtocol.Route
