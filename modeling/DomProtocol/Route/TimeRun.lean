import DomProtocol.Route.TimeStore
import DomProtocol.Lib.Timeline

/-! # Runs of the time store

A **`Node`** is a running process with an open store, or the database a stopped process left behind.
A node may stop between two calls, and a call may be cut short between its transactions
(**`Step`**).

What the store is for is a **`Timeline`** of evidence rows: each admitted row follows the one before
it, and the first contradiction ends the timeline for good. **`Db.Shows`** says that the tables of a
database show a timeline. Every committed transaction is one of the **`Db.Change`**s, which are at
most one step of the timeline (`Db.Shows.change`), and so is every step of a run (`Step.refines`).
-/

namespace DomProtocol.Route

open Store

open Settlement (Digest32 Blake2b)

/-! ## What a transaction may commit -/

section Changes

variable [Blake2b]

/-- **A sound policy row**: canonical, under its own digest, and of the pinned route. -/
structure PolicyRow.Sound (pins : StoreConfig) (row : PolicyRow) : Prop where
  decodes : row.signed.decode = .ok row.signed
  digest : row.signed.policy.policyDigest = .ok row.digest
  network : row.signed.policy.networkId = pins.networkId
  registry : row.signed.policy.registryDigest = pins.registryDigest
  scope : row.signed.policy.routeScopeDigest = pins.routeScopeDigest

/-- **A sound evidence row** under a policy row: canonical, valid when it was observed, and with the
columns derived from it. -/
structure EvidenceRow.Sound (policy : PolicyRow) (row : EvidenceRow) : Prop where
  decodes : row.signed.decode = .ok row.signed
  valid : row.signed.evidence.validateAt policy.signed.policy
    row.signed.evidence.observedAtSeconds = .ok ()
  columns : row = evidenceRow row.signed policy.digest row.status

/-- A row follows another one if its evidence does. -/
def EvidenceRow.FollowsRow (left right : EvidenceRow) : Prop :=
  Follows left.signed.evidence right.signed.evidence

/-- **The changes of a committed transaction.** -/
inductive Db.Change : Db → Db → Prop where
  | clock (db : Db) (now : UInt64) (later : db.clockHighWater ≤ now) :
      Db.Change db { db with clockHighWater := now }
  | frozen (db : Db) (row : PolicyRow) (revision : UInt64) (first : db.policy = none)
      (sound : row.Sound db.pins) (next : checkedAdd db.revision 1 = some revision) :
      Db.Change db { db with policy := some row, revision }
  | admitted (db : Db) (policy : PolicyRow) (row : EvidenceRow) (revision : UInt64)
      (bound : db.policy = some policy) (sound : row.Sound policy) (active : row.status = .active)
      (follows : ∀ current ∈ db.current, current.status = .active ∧ current.FollowsRow row)
      (new : ∀ old ∈ db.history, old.digest ≠ row.digest)
      (next : checkedAdd db.revision 1 = some revision)
      (room : db.history.length < maxHistoryRows) :
      Db.Change db { db with history := db.history ++ [row], current := some row, revision }
  | refuted (db : Db) (policy : PolicyRow) (current row : EvidenceRow) (revision : UInt64)
      (bound : db.policy = some policy) (sound : row.Sound policy)
      (conflict : row.status = .conflict) (present : db.current = some current)
      (active : current.status = .active) (ahead : current.sequence ≤ row.sequence)
      (new : ∀ old ∈ db.history, old.digest ≠ row.digest)
      (next : checkedAdd db.revision 1 = some revision)
      (room : db.history.length < maxHistoryRows) :
      Db.Change db { db with
        history := db.history ++ [row]
        current := some { current with status := .invalidated }
        revision }

/-! ## The timeline a database shows -/

/-- The current row of a timeline. -/
def currentRow : Timeline EvidenceRow → Option EvidenceRow
  | .fresh => none
  | .live _ last => some last
  | .dead _ last _ => some { last with status := .invalidated }

/-- The statuses of a timeline's rows, and the place of its conflict. -/
def StatusesFit (t : Timeline EvidenceRow) : Prop :=
  (∀ row ∈ t.admitted, row.status = .active) ∧
    ∀ older last conflict, t = .dead older last conflict →
      conflict.status = .conflict ∧ last.sequence ≤ conflict.sequence

/-- **The tables of a database show a timeline.** -/
structure Db.Shows (db : Db) (t : Timeline EvidenceRow) : Prop where
  unbound : db.policy = none → t = .fresh ∧ db.revision = 0
  policy : ∀ row ∈ db.policy, row.Sound db.pins
  rows : ∀ policy ∈ db.policy, ∀ row ∈ t.rows, row.Sound policy
  revision : db.policy ≠ none → db.revision.toNat = db.history.length + 1
  bounded : db.history.length ≤ maxHistoryRows
  history : db.history = t.rows
  current : db.current = currentRow t
  chained : t.Chained EvidenceRow.FollowsRow
  statuses : StatusesFit t
  distinct : (t.rows.map EvidenceRow.digest).Nodup

/-- A new database shows nothing. -/
theorem Db.shows_created (config : StoreConfig) : (Db.created config).Shows .fresh where
  unbound _ := ⟨rfl, rfl⟩
  policy := by simp [Db.created]
  rows := by simp [Db.created]
  revision h := absurd rfl h
  bounded := Nat.zero_le _
  history := rfl
  current := rfl
  chained := List.isChain_nil
  statuses := ⟨fun _ h => (by cases h), fun _ _ _ h => (by cases h)⟩
  distinct := List.nodup_nil

omit [Blake2b] in
theorem toNat_of_checkedAdd_one {value next : UInt64} (h : checkedAdd value 1 = some next) :
    next.toNat = value.toNat + 1 := by
  have := checkedAdd_eq_some.mp h
  simpa using this

namespace Db.Shows

variable {db : Db} {t : Timeline EvidenceRow}

variable {row : EvidenceRow} {policy : PolicyRow}

/-- An active current row is recorded, as the last admitted one. -/
theorem mem_of_active (timeline : db.Shows t) (present : db.current = some row)
    (active : row.status = .active) : row ∈ t.rows := by
  have shown := timeline.current.symm.trans present
  cases t with
  | fresh => cases shown
  | live older last =>
    obtain rfl := Option.some.inj shown
    simp [Timeline.rows]
  | dead older last conflict =>
    obtain rfl := Option.some.inj shown
    cases active

/-- A row that is not the key of any recorded row keeps the keys distinct. -/
theorem distinct_snoc (timeline : db.Shows t) (new : ∀ old ∈ db.history, old.digest ≠ row.digest) :
    ((t.rows ++ [row]).map EvidenceRow.digest).Nodup := by
  rw [List.map_append, List.nodup_append]
  refine ⟨timeline.distinct, List.nodup_singleton _, ?_⟩
  intro key old other mem same
  obtain ⟨row', recorded, rfl⟩ := List.mem_map.mp old
  rw [List.map_singleton, List.mem_singleton] at mem
  exact new row' (timeline.history ▸ recorded) (same.trans mem)

/-- The rows of a grown timeline are sound if the new one is. -/
theorem rows_snoc (timeline : db.Shows t)
    (bound : db.policy = some policy) (sound : row.Sound policy) :
    ∀ policy ∈ db.policy, ∀ old ∈ t.rows ++ [row], old.Sound policy := by
  intro policy' found old mem
  rw [mem_snoc] at mem
  rw [bound, Option.mem_some_iff] at found
  subst found
  rcases mem with recorded | rfl
  · exact timeline.rows _ bound old recorded
  · exact sound

/-- A database with one more row shows the timeline that grew by it. -/
theorem snoc (timeline : db.Shows t) {t' : Timeline EvidenceRow} {revision : UInt64}
    {current : Option EvidenceRow}
    (bound : db.policy = some policy) (sound : row.Sound policy)
    (new : ∀ old ∈ db.history, old.digest ≠ row.digest)
    (next : checkedAdd db.revision 1 = some revision) (room : db.history.length < maxHistoryRows)
    (grows : Timeline.Grows EvidenceRow.FollowsRow t t') (rows : t'.rows = t.rows ++ [row])
    (statuses : StatusesFit t') (shown : current = currentRow t') :
    Db.Shows { db with history := db.history ++ [row], current, revision } t' where
  unbound h := by
    rw [bound] at h
    cases h
  policy := timeline.policy
  rows := by
    rw [rows]
    exact timeline.rows_snoc bound sound
  revision _ := by
    rw [toNat_of_checkedAdd_one next, timeline.revision (by simp [bound]), List.length_append,
      List.length_singleton]
  bounded := by
    rw [List.length_append, List.length_singleton]
    exact room
  history := by rw [rows, ← timeline.history]
  current := shown
  chained := grows.chained timeline.chained
  statuses := statuses
  distinct := by
    rw [rows]
    exact timeline.distinct_snoc new

/-- **A change is at most one admission** to the timeline. -/
theorem change {db' : Db} (timeline : db.Shows t) (changed : db.Change db') :
    ∃ t', Timeline.Grown EvidenceRow.FollowsRow t t' ∧ db'.Shows t' := by
  cases changed with
  | clock now later => exact ⟨t, .refl, { timeline with }⟩
  | frozen row revision first sound next =>
    obtain ⟨rfl, zero⟩ := timeline.unbound first
    refine ⟨_, .refl, { timeline with unbound := ?_, policy := ?_, rows := ?_, revision := ?_ }⟩
    · exact fun h => by cases h
    · intro row' found
      rw [← Option.mem_some_iff.mp found]
      exact sound
    · exact fun _ _ _ mem => by cases mem
    · intro _
      have recorded : db.history = [] := timeline.history
      show revision.toNat = db.history.length + 1
      rw [toNat_of_checkedAdd_one next, zero, recorded]
      rfl
  | admitted policy row revision bound sound active follows new next room =>
    cases t with
    | fresh =>
      refine ⟨.live [] row, .single (.first row), timeline.snoc bound sound new next room (.first row)
        rfl ⟨?_, fun _ _ _ h => by cases h⟩ rfl⟩
      intro row' mem
      rw [Timeline.admitted, List.nil_append, List.mem_singleton] at mem
      exact mem ▸ active
    | live older last =>
      have grows : Timeline.Grows EvidenceRow.FollowsRow (.live older last)
          (.live (older ++ [last]) row) := .extend older last row (follows last timeline.current).2
      refine ⟨_, .single grows, timeline.snoc bound sound new next room grows rfl
        ⟨?_, fun _ _ _ h => by cases h⟩ rfl⟩
      intro row' mem
      rw [Timeline.admitted, mem_snoc] at mem
      rcases mem with earlier | rfl
      · exact timeline.statuses.1 row' earlier
      · exact active
    | dead older last conflict =>
      have invalidated := (follows _ timeline.current).1
      cases invalidated
  | refuted policy current row revision bound sound conflict present active ahead new next room =>
    cases t with
    | fresh =>
      have absent := timeline.current
      rw [present] at absent
      cases absent
    | live older last =>
      obtain rfl : current = last := Option.some.inj (present.symm.trans timeline.current)
      have grows : Timeline.Grows EvidenceRow.FollowsRow (.live older current)
          (.dead older current row) := .refute older current row
      refine ⟨_, .single grows, timeline.snoc bound sound new next room grows
        (by simp [Timeline.rows]) ⟨timeline.statuses.1, ?_⟩ rfl⟩
      intro older' last' conflict' same
      cases same
      exact ⟨conflict, ahead⟩
    | dead older last conflict' =>
      obtain rfl := Option.some.inj (present.symm.trans timeline.current)
      cases active

end Db.Shows

end Changes

/-! ## What verification establishes -/

section Verified

variable [Blake2b] [Secp]

variable {context : PolicyContext} {policy : RouteTimePolicy}
  {signed octets : SignedRouteTimePolicy} {now : UInt64} {authorities : AuthoritySet}
  {evidence : RouteTimeEvidence} {digest : Digest32}

/-- The scope, network and registry of a context are the pinned ones. -/
structure PolicyContext.Pinned (context : PolicyContext) (config : StoreConfig) : Prop where
  network : context.registry.manifest.networkId = config.networkId
  registry : context.registry.manifestDigest = config.registryDigest
  scope : routeScopeDigest context.upstream context.downstream = .ok config.routeScopeDigest

theorem Store.pinned_of_validateCallContext {s : Store} {authorities : Option AuthoritySet}
    (accepted : s.validateCallContext context authorities = .ok ()) :
    context.Pinned s.config := by
  simp only [validateCallContext, bind_eq_ok, rejectIf_eq_ok, not_not] at accepted
  obtain ⟨_, network, _, registry, _, scope, _, rfl, -⟩ := accepted
  exact ⟨network, registry, scope⟩

section

omit [Blake2b] [Secp]

theorem RouteTimePolicy.decode_eq_ok {decoded : RouteTimePolicy} :
    policy.decode = .ok decoded ↔ policy.validateStatic = .ok () ∧ decoded = policy := by
  rw [decode, check_bind_eq_ok, pure_eq_ok, @eq_comm _ decoded]

theorem SignedRouteTimePolicy.canonicalBytes_eq_ok :
    signed.canonicalBytes = .ok octets ↔ signed.policy.validateStatic = .ok () ∧
      validateSignatureShape signed.signatures = .ok () ∧ octets = signed := by
  simp only [canonicalBytes, bind_eq_ok, pure_eq_ok, RouteTimePolicy.decode_eq_ok]
  exact ⟨fun ⟨_, ⟨static, _⟩, _, shape, same⟩ => ⟨static, shape, same.symm⟩,
    fun ⟨static, shape, same⟩ => ⟨_, ⟨static, rfl⟩, (), shape, same.symm⟩⟩

theorem SignedRouteTimePolicy.decode_eq_ok {decoded : SignedRouteTimePolicy} :
    signed.decode = .ok decoded ↔ signed.canonicalBytes = .ok decoded := by
  simp only [decode, bind_eq_ok, canonicalBytes_eq_ok, RouteTimePolicy.decode_eq_ok]
  exact ⟨fun ⟨_, _, _, _, h⟩ => h, fun h => ⟨(), h.2.1, _, ⟨h.1, rfl⟩, h⟩⟩

theorem SignedRouteTimeEvidence.canonicalBytes_eq_ok {signed octets : SignedRouteTimeEvidence} :
    signed.canonicalBytes = .ok octets ↔
      validateSignatureShape signed.signatures = .ok () ∧ octets = signed := by
  rw [canonicalBytes, check_bind_eq_ok, pure_eq_ok, @eq_comm _ octets]

theorem SignedRouteTimeEvidence.decode_eq_ok {signed decoded : SignedRouteTimeEvidence} :
    signed.decode = .ok decoded ↔ signed.canonicalBytes = .ok decoded := by
  rw [decode, check_bind_eq_ok, canonicalBytes_eq_ok, and_iff_right_of_imp And.left]

end

/-- **An authentic policy** is the signed one, rebuilt from the registry and the terms. -/
theorem SignedRouteTimePolicy.verifyAuthenticity_eq_ok :
    signed.verifyAuthenticity context = .ok policy ↔
      policy = signed.policy ∧ policy.validateStatic = .ok () ∧
        policy.validateAgainst context.registry context.upstream context.downstream = .ok () ∧
        ∃ digest, policy.policyDigest = .ok digest ∧
          verifySignatures context.policyAuthorities digest signed.signatures = .ok () := by
  simp only [verifyAuthenticity, bind_eq_ok, pure_eq_ok, RouteTimePolicy.decode_eq_ok]
  constructor
  · rintro ⟨_, ⟨static, rfl⟩, _, against, digest, hdigest, _, signatures, rfl⟩
    exact ⟨rfl, static, against, digest, hdigest, signatures⟩
  · rintro ⟨rfl, static, against, digest, hdigest, signatures⟩
    exact ⟨_, ⟨static, rfl⟩, (), against, digest, hdigest, (), signatures, rfl⟩

theorem SignedRouteTimePolicy.verify_eq_ok :
    signed.verify context now = .ok policy ↔ signed.verifyAuthenticity context = .ok policy ∧
      ¬ (now < policy.limits.validFromSeconds ∨ policy.limits.expiresAtSeconds ≤ now) := by
  simp only [verify, bind_eq_ok, pure_eq_ok, rejectIf_eq_ok]
  constructor
  · rintro ⟨_, authentic, _, inForce, rfl⟩
    exact ⟨authentic, inForce⟩
  · rintro ⟨authentic, inForce⟩
    exact ⟨_, authentic, (), inForce, rfl⟩

theorem SignedRouteTimeEvidence.verifyAuthenticity_eq_ok {signed : SignedRouteTimeEvidence} :
    signed.verifyAuthenticity authorities policy = .ok evidence ↔ evidence = signed.evidence ∧
      evidence.validateAt policy evidence.observedAtSeconds = .ok () ∧
      verifySignatures authorities evidence.evidenceDigest signed.signatures = .ok () := by
  rw [verifyAuthenticity, check_bind_eq_ok, check_bind_eq_ok, pure_eq_ok]
  constructor
  · rintro ⟨valid, signatures, rfl⟩
    exact ⟨rfl, valid, signatures⟩
  · rintro ⟨rfl, valid, signatures⟩
    exact ⟨valid, signatures, rfl⟩

theorem SignedRouteTimeEvidence.verify_eq_ok {signed : SignedRouteTimeEvidence} :
    signed.verify authorities policy now = .ok evidence ↔
      signed.verifyAuthenticity authorities policy = .ok evidence ∧
        evidence.validateAt policy now = .ok () := by
  simp only [verify, bind_eq_ok, pure_eq_ok]
  exact ⟨fun ⟨_, authentic, _, fresh, same⟩ => same ▸ ⟨authentic, fresh⟩,
    fun ⟨authentic, fresh⟩ => ⟨_, authentic, (), fresh, rfl⟩⟩

omit [Secp] in
/-- Valid evidence names the digest of its policy. -/
theorem RouteTimeEvidence.policyDigest_of_validateAt
    (valid : evidence.validateAt policy now = .ok ()) (hdigest : policy.policyDigest = .ok digest) :
    evidence.policyDigest = digest ∧ evidence.routeScopeDigest = policy.routeScopeDigest := by
  simp only [validateAt, bind_eq_ok, rejectIf_eq_ok, not_or, not_not] at valid
  obtain ⟨_, -, digest', hdigest', _, ⟨same, scope, -⟩, -⟩ := valid
  rw [hdigest, Except.ok.injEq] at hdigest'
  exact ⟨same.trans hdigest'.symm, scope⟩

/-- **A verified policy makes a sound row** of the store whose context it was verified in. -/
theorem PolicyRow.sound_of_verify {config : StoreConfig}
    (pinned : context.Pinned config) (authentic : signed.verifyAuthenticity context = .ok policy)
    (canonical : signed.canonicalBytes = .ok octets) (hdigest : policy.policyDigest = .ok digest) :
    PolicyRow.Sound config ⟨digest, octets⟩ := by
  obtain ⟨rfl, -, against, -⟩ := SignedRouteTimePolicy.verifyAuthenticity_eq_ok.mp authentic
  obtain ⟨-, -, rfl⟩ := SignedRouteTimePolicy.canonicalBytes_eq_ok.mp canonical
  obtain ⟨network, registry, scope, -⟩ := RouteTimePolicy.validateAgainst_pins against
  have same := scope.symm.trans pinned.scope
  exact {
    decodes := SignedRouteTimePolicy.decode_eq_ok.mpr canonical
    digest := hdigest
    network := network.trans pinned.network
    registry := registry.trans pinned.registry
    scope := Except.ok.inj same }

/-- **Verified evidence makes a sound row** under the policy it was verified with. -/
theorem EvidenceRow.sound_of_verify {signed : SignedRouteTimeEvidence}
    {policy : PolicyRow} (status : EvidenceStatus)
    (authentic : signed.verifyAuthenticity authorities policy.signed.policy = .ok evidence)
    (canonical : signed.canonicalBytes = .ok signed) :
    (evidenceRow signed policy.digest status).Sound policy := by
  obtain ⟨rfl, valid, -⟩ := SignedRouteTimeEvidence.verifyAuthenticity_eq_ok.mp authentic
  exact {
    decodes := SignedRouteTimeEvidence.decode_eq_ok.mpr canonical
    valid := valid
    columns := rfl }

end Verified

/-! ## What the calls commit -/

section Commits

variable [Blake2b]

omit [Blake2b] in
/-- **The cases of a call**: it is refused before it commits anything, after it advanced the clock,
or it commits. -/
theorem Store.transact_cases {α : Type} (s : Store) (check : Except RouteTimeError Unit)
    (now : UInt64) (body : Store → Except RouteTimeError (Committed α)) :
    (∃ e, s.transact check now body = (.error e, s)) ∨
      ∃ clocked, check = .ok () ∧ s.advanceClockDurably now = .ok clocked ∧
        ((∃ e, body clocked = .error e ∧ s.transact check now body = (.error e, clocked)) ∨
          ∃ committed, body clocked = .ok committed ∧
            s.transact check now body =
              (committed.answer, { clocked with db := committed.db })) := by
  unfold transact
  cases check with
  | error e => exact .inl ⟨e, rfl⟩
  | ok _ =>
    cases advanced : s.advanceClockDurably now with
    | error e => exact .inl ⟨e, by simp⟩
    | ok clocked =>
      refine .inr ⟨clocked, rfl, rfl, ?_⟩
      cases transaction : body clocked with
      | error e => exact .inl ⟨e, rfl, by simp [transaction]⟩
      | ok committed => exact .inr ⟨committed, rfl, by simp [transaction]⟩

omit [Blake2b] in
theorem Store.advanceClockDurably_eq_ok {s clocked : Store} {now : UInt64} :
    s.advanceClockDurably now = .ok clocked ↔ s.db.openingEpoch = s.openingEpoch ∧
      s.db.clockHighWater ≤ now ∧ clocked = { s with db := { s.db with clockHighWater := now } } := by
  simp only [advanceClockDurably, requireCurrentOpening, check_bind_eq_ok, rejectIf_eq_ok,
    pure_eq_ok, not_not, UInt64.not_lt, @eq_comm _ clocked]

namespace Db

variable {db db' : Db} {row : EvidenceRow} {signed : SignedRouteTimeEvidence}
  {policyDigest : Digest32} {committed : Committed InstallOutcome}

section

omit [Blake2b]

theorem insertEvidenceHistory_eq_ok :
    db.insertEvidenceHistory row = .ok db' ↔ (∀ old ∈ db.history, old.digest ≠ row.digest) ∧
      db' = { db with history := db.history ++ [row] } := by
  simp only [insertEvidenceHistory, check_bind_eq_ok, rejectIf_eq_ok, pure_eq_ok, not_exists,
    not_and, @eq_comm _ db']

theorem incrementRevision_eq_ok :
    db.incrementRevision = .ok db' ↔
      ∃ revision, checkedAdd db.revision 1 = some revision ∧ db' = { db with revision } := by
  simp only [incrementRevision, bind_eq_ok, okOr_eq_ok, pure_eq_ok]
  exact ⟨fun ⟨r, next, same⟩ => ⟨r, next, same.symm⟩, fun ⟨r, next, same⟩ => ⟨r, next, same.symm⟩⟩

theorem enforceHistoryBound_eq_ok {u : Unit} :
    db.enforceHistoryBound = .ok u ↔ db.history.length ≤ maxHistoryRows := by
  rw [enforceHistoryBound, rejectIf_eq_ok, Nat.not_lt]

end

/-- **When a conflict is recorded.** -/
theorem persistConflictAndInvalidate_eq_ok :
    db.persistConflictAndInvalidate signed policyDigest = .ok db' ↔
      (∀ old ∈ db.history, old.digest ≠ signed.evidence.evidenceDigest) ∧
        ∃ revision, checkedAdd db.revision 1 = some revision ∧
          db.history.length < maxHistoryRows ∧
          db' = { db with
            history := db.history ++ [evidenceRow signed policyDigest .conflict]
            current := db.current.map ({ · with status := .invalidated })
            revision } := by
  simp only [persistConflictAndInvalidate, bind_eq_ok, insertEvidenceHistory_eq_ok,
    incrementRevision_eq_ok, enforceHistoryBound_eq_ok, pure_eq_ok]
  constructor
  · rintro ⟨_, ⟨new, rfl⟩, _, ⟨revision, next, rfl⟩, _, room, rfl⟩
    rw [List.length_append, List.length_singleton] at room
    exact ⟨new, revision, next, room, rfl⟩
  · rintro ⟨new, revision, next, room, rfl⟩
    refine ⟨_, ⟨new, rfl⟩, _, ⟨revision, next, rfl⟩, (), ?_, rfl⟩
    rw [List.length_append, List.length_singleton]
    exact room

/-- When evidence becomes current. -/
theorem appendEvidence_eq_ok :
    db.appendEvidence signed policyDigest = .ok committed ↔
      (∀ old ∈ db.history, old.digest ≠ signed.evidence.evidenceDigest) ∧
        ∃ revision, checkedAdd db.revision 1 = some revision ∧
          db.history.length < maxHistoryRows ∧
          committed = ⟨.ok .installed, { db with
            history := db.history ++ [evidenceRow signed policyDigest .active]
            current := some (evidenceRow signed policyDigest .active)
            revision }⟩ := by
  simp only [appendEvidence, bind_eq_ok, insertEvidenceHistory_eq_ok,
    incrementRevision_eq_ok, enforceHistoryBound_eq_ok, pure_eq_ok]
  constructor
  · rintro ⟨_, ⟨new, rfl⟩, _, ⟨revision, next, rfl⟩, _, room, rfl⟩
    rw [List.length_append, List.length_singleton] at room
    exact ⟨new, revision, next, room, rfl⟩
  · rintro ⟨new, revision, next, room, rfl⟩
    refine ⟨_, ⟨new, rfl⟩, _, ⟨revision, next, rfl⟩, (), ?_, rfl⟩
    rw [List.length_append, List.length_singleton]
    exact room

variable [Secp]

/-- **The cases of a comparison** with the current row: nothing changes, a contradiction is
recorded, or the evidence follows and becomes current. -/
theorem compareEvidence_cases {authorities : AuthoritySet} {policy : RouteTimePolicy}
    (ran : db.compareEvidence row authorities policy policyDigest signed = .ok committed) :
    row.status = .active ∧
      (committed.db = db ∨
        (row.sequence ≤ signed.evidence.sequence ∧
          db.persistConflictAndInvalidate signed policyDigest = .ok committed.db) ∨
        (Follows row.signed.evidence signed.evidence ∧
          db.appendEvidence signed policyDigest = .ok committed)) := by
  simp only [compareEvidence, bind_eq_ok, SignedRouteTimeEvidence.decode_eq_ok,
    SignedRouteTimeEvidence.canonicalBytes_eq_ok, SignedRouteTimeEvidence.verifyAuthenticity_eq_ok,
    reconcileEvidenceRow, rejectIf_eq_ok, not_or, not_not] at ran
  obtain ⟨_, ⟨-, rfl⟩, _, ⟨rfl, -, -⟩, _, ⟨sequence, -⟩, _, -, _, active, ran⟩ := ran
  refine ⟨active, ?_⟩
  split at ran
  · rw [pure_eq_ok] at ran
    exact .inl (ran ▸ rfl)
  split at ran
  · rename_i equal
    simp only [bind_eq_ok, pure_eq_ok] at ran
    obtain ⟨db', recorded, rfl⟩ := ran
    exact .inr (.inl ⟨UInt64.le_of_eq (sequence.trans equal.symm), recorded⟩)
  split at ran
  · cases ran
  rename_i ahead
  rw [not_or, UInt64.not_lt, UInt64.not_le] at ahead
  split at ran
  · simp only [bind_eq_ok, pure_eq_ok] at ran
    obtain ⟨db', recorded, rfl⟩ := ran
    exact .inr (.inl ⟨sequence ▸ ahead.1, recorded⟩)
  · rename_i differs continues
    rw [not_or, not_not, not_not] at continues
    exact .inr (.inr ⟨⟨UInt64.lt_of_le_of_ne ahead.1 (Ne.symm differs), ahead.2, continues⟩, ran⟩)

end Db

variable {db db' : Db} {t : Timeline EvidenceRow} {now : UInt64}
  {committed : Committed InstallOutcome}

/-- A database is changed by any number of committed transactions. -/
abbrev Db.Changed : Db → Db → Prop := Relation.ReflTransGen Db.Change

/-- **What no transaction changes**: the pins, the opening epoch and a frozen policy. -/
structure Db.Keeps (db db' : Db) : Prop where
  pins : db'.pins = db.pins
  openingEpoch : db'.openingEpoch = db.openingEpoch
  policy : ∀ row ∈ db.policy, db'.policy = some row

omit [Blake2b] in
theorem Db.Keeps.refl (db : Db) : db.Keeps db := ⟨rfl, rfl, fun _ h => h⟩

omit [Blake2b] in
theorem Db.Keeps.trans {db'' : Db} (first : db.Keeps db') (second : db'.Keeps db'') :
    db.Keeps db'' where
  pins := second.pins.trans first.pins
  openingEpoch := second.openingEpoch.trans first.openingEpoch
  policy row h := second.policy row (first.policy row h)

theorem Db.Change.keeps (changed : db.Change db') : db.Keeps db' := by
  cases changed with
  | frozen row revision first sound next =>
    refine ⟨rfl, rfl, fun row' h => ?_⟩
    rw [first] at h
    cases h
  | clock | admitted | refuted => exact ⟨rfl, rfl, fun _ h => h⟩

theorem Db.Changed.keeps (changed : db.Changed db') : db.Keeps db' := by
  induction changed with
  | refl => exact .refl db
  | tail _ change ih => exact ih.trans change.keeps

theorem Db.Shows.changed (timeline : db.Shows t) (changed : db.Changed db') :
    ∃ t', Timeline.Grown EvidenceRow.FollowsRow t t' ∧ db'.Shows t' := by
  induction changed with
  | refl => exact ⟨t, .refl, timeline⟩
  | tail _ change ih =>
    obtain ⟨middle, grown, shown⟩ := ih
    obtain ⟨t', grown', shown'⟩ := shown.change change
    exact ⟨t', grown.trans grown', shown'⟩

variable [Secp] {s : Store}

/-- Evidence that passed the transaction's checks, at the row it makes. -/
theorem Store.evidenceTransaction_changed {signed : SignedRouteTimeEvidence}
    {context : EvidenceContext} (timeline : s.db.Shows t)
    (ran : evidenceTransaction signed context now s = .ok committed) :
    s.db.Changed committed.db := by
  simp only [evidenceTransaction, Db.loadPolicy, bind_eq_ok, okOr_eq_ok,
    SignedRouteTimePolicy.decode_eq_ok, SignedRouteTimePolicy.verify_eq_ok,
    SignedRouteTimeEvidence.verify_eq_ok] at ran
  obtain ⟨_, ⟨policyRow, bound, canonicalPolicy⟩, policy, ⟨authenticPolicy, -⟩, _,
    ⟨authentic, -⟩, octets, canonical, digest, hdigest, _, -, _, -, ran⟩ := ran
  obtain ⟨-, -, rfl⟩ := SignedRouteTimePolicy.canonicalBytes_eq_ok.mp canonicalPolicy
  obtain ⟨rfl, -, -⟩ := SignedRouteTimePolicy.verifyAuthenticity_eq_ok.mp authenticPolicy
  obtain ⟨-, rfl⟩ := SignedRouteTimeEvidence.canonicalBytes_eq_ok.mp canonical
  obtain rfl : policyRow.digest = digest :=
    Except.ok.inj ((timeline.policy policyRow bound).digest.symm.trans hdigest)
  have sound := fun status => EvidenceRow.sound_of_verify status authentic canonical
  cases present : s.db.current with
  | none =>
    rw [present] at ran
    obtain ⟨new, revision, next, room, rfl⟩ := Db.appendEvidence_eq_ok.mp ran
    refine .single (.admitted s.db policyRow _ revision bound (sound .active) rfl ?_ new next room)
    rw [present]
    exact fun _ h => by cases h
  | some row =>
    rw [present] at ran
    obtain ⟨active, unchanged | ⟨ahead, recorded⟩ | ⟨follows, appended⟩⟩ :=
      Db.compareEvidence_cases ran
    · rw [unchanged]
    · obtain ⟨new, revision, next, room, same⟩ := Db.persistConflictAndInvalidate_eq_ok.mp recorded
      rw [same, present]
      exact .single (.refuted s.db policyRow row _ revision bound (sound .conflict) rfl present
        active ahead new next room)
    · obtain ⟨new, revision, next, room, rfl⟩ := Db.appendEvidence_eq_ok.mp appended
      refine .single
        (.admitted s.db policyRow _ revision bound (sound .active) rfl ?_ new next room)
      intro current found
      rw [present, Option.mem_some_iff] at found
      exact found ▸ ⟨active, follows⟩

theorem Store.policyTransaction_changed {signed : SignedRouteTimePolicy} {context : PolicyContext}
    (pinned : context.Pinned s.db.pins)
    (ran : policyTransaction signed context now s = .ok committed) :
    s.db.Changed committed.db := by
  simp only [policyTransaction, bind_eq_ok, SignedRouteTimePolicy.verify_eq_ok] at ran
  obtain ⟨policy, ⟨authentic, -⟩, octets, canonical, digest, hdigest, _, -, _, -, ran⟩ := ran
  cases present : s.db.policy with
  | some row =>
    rw [present] at ran
    simp only [Db.comparePolicy, bind_eq_ok, pure_eq_ok] at ran
    obtain ⟨-, -, -, -, -, -, -, -, -, -, rfl⟩ := ran
    exact .refl
  | none =>
    rw [present] at ran
    simp only [Db.freezePolicy, bind_eq_ok, Db.incrementRevision_eq_ok, pure_eq_ok] at ran
    obtain ⟨_, ⟨revision, next, rfl⟩, rfl⟩ := ran
    exact .single (.frozen s.db _ revision present
      (PolicyRow.sound_of_verify pinned authentic canonical hdigest) next)

end Commits

/-! ## Steps and runs -/

section Runs

variable [Blake2b] [Secp]

/-- The mutating calls of a store. -/
inductive Call where
  | installPolicy (signed : SignedRouteTimePolicy) (context : PolicyContext) (now : UInt64)
  | installEvidence (signed : SignedRouteTimeEvidence) (context : EvidenceContext) (now : UInt64)
  | proveRouteLadder (context : EvidenceContext) (now : UInt64)
  | revalidateCapabilityAt (proof : VerifiedRouteTimeLadder) (now : UInt64)
  | consumeCapabilityAt (proof : VerifiedRouteTimeLadder) (now : UInt64)

namespace Call

/-- The check a call makes before it touches the database. -/
def check (s : Store) : Call → Except RouteTimeError Unit
  | installPolicy _ context _ => s.validateCallContext context none
  | installEvidence _ context _ => s.validateContext context
  | proveRouteLadder context _ => s.validateContext context
  | revalidateCapabilityAt _ _ => .ok ()
  | consumeCapabilityAt _ _ => .ok ()

/-- The second a call is made at. -/
def now : Call → UInt64
  | installPolicy _ _ now => now
  | installEvidence _ _ now => now
  | proveRouteLadder _ now => now
  | revalidateCapabilityAt _ now => now
  | consumeCapabilityAt _ now => now

/-- The store a call leaves when it returns. -/
def run (s : Store) : Call → Store
  | installPolicy signed context now => (s.installPolicy signed context now).2
  | installEvidence signed context now => (s.installEvidence signed context now).2
  | proveRouteLadder context now => (s.proveRouteLadder context now).2
  | revalidateCapabilityAt proof now => (s.revalidateCapabilityAt proof now).2
  | consumeCapabilityAt proof now => (s.consumeCapabilityAt proof now).2

/-- The store a call leaves when it stops after its first transaction. -/
def clocked (s : Store) (call : Call) : Store :=
  match call.check s, s.advanceClockDurably call.now with
  | .ok (), .ok clocked => clocked
  | _, _ => s

/-- **Where a call can end**: before its first transaction, between the two, or at its end. -/
def ends (s : Store) (call : Call) : List Store := [s, call.clocked s, call.run s]

end Call

variable {s : Store} {now : UInt64} {left : Store} {proof : VerifiedRouteTimeLadder}
  {context : EvidenceContext} {t : Timeline EvidenceRow}

/-- A process with an open store, or the database a stopped one left behind. -/
inductive Node where
  | running (s : Store)
  | stopped (db : Db)

/-- The durable part of a node. -/
def Node.db : Node → Db
  | running s => s.db
  | stopped db => db

/-- **One step of a node.** -/
inductive Step : Node → Node → Prop where
  | called (s left : Store) (call : Call) (ends : left ∈ call.ends s) :
      Step (.running s) (.running left)
  | crashed (s left : Store) (call : Call) (ends : left ∈ call.ends s) :
      Step (.running s) (.stopped left.db)
  | opened (db : Db) (config : StoreConfig) (s : Store)
      (accepted : Store.openExisting db config = .ok s) : Step (.stopped db) (.running s)
  | interrupted (db : Db) (config : StoreConfig) (s : Store)
      (accepted : Store.openExisting db config = .ok s) : Step (.stopped db) (.stopped s.db)

/-- **A run**: any number of steps. -/
abbrev Run : Node → Node → Prop := Relation.ReflTransGen Step

/-- **The states of a created store.** -/
def Reachable (n : Node) : Prop :=
  ∃ config s, Store.create config = .ok s ∧ Run (.running s) n

/-- The handle is the one of the last opening, and its pins are those of the database. -/
structure Store.Current (s : Store) : Prop where
  pins : s.config = s.db.pins
  openingEpoch : s.db.openingEpoch = s.openingEpoch

/-- **A node shows a timeline.** -/
structure Node.Shows (n : Node) (t : Timeline EvidenceRow) : Prop where
  db : n.db.Shows t
  current : ∀ s, n = .running s → s.Current

/-- One call changes the database only by committed transactions, and keeps the handle. -/
structure Store.Becomes (s left : Store) : Prop where
  db : s.db.Changed left.db
  config : left.config = s.config
  openingEpoch : left.openingEpoch = s.openingEpoch

section

omit [Secp]

theorem Store.Becomes.refl (s : Store) : s.Becomes s := ⟨.refl, rfl, rfl⟩

/-- The first transaction of a call. -/
theorem Store.becomes_clocked {clocked : Store}
    (advanced : s.advanceClockDurably now = .ok clocked) : s.Becomes clocked := by
  obtain ⟨-, later, rfl⟩ := advanceClockDurably_eq_ok.mp advanced
  exact ⟨.single (.clock s.db now later), rfl, rfl⟩

/-- A call changes what its transactions change. -/
theorem Store.becomes_transact {α : Type} {check : Except RouteTimeError Unit}
    {body : Store → Except RouteTimeError (Committed α)}
    (commits : ∀ clocked committed, check = .ok () → s.advanceClockDurably now = .ok clocked →
      body clocked = .ok committed → clocked.db.Changed committed.db) :
    s.Becomes (s.transact check now body).2 := by
  rcases s.transact_cases check now body with ⟨e, ran⟩ | ⟨clocked, checked, advanced,
    ⟨e, -, ran⟩ | ⟨committed, transaction, ran⟩⟩
  · rw [ran]
    exact .refl s
  · rw [ran]
    exact becomes_clocked advanced
  · have before := becomes_clocked advanced
    rw [ran]
    exact ⟨before.db.trans (commits clocked committed checked advanced transaction),
      before.config, before.openingEpoch⟩

theorem Store.Current.becomes (current : s.Current) (becomes : s.Becomes left) :
    left.Current where
  pins := by rw [becomes.config, becomes.db.keeps.pins, current.pins]
  openingEpoch := by
    rw [becomes.openingEpoch, becomes.db.keeps.openingEpoch, current.openingEpoch]

end

omit [Blake2b] [Secp] in
theorem Store.consumeCapabilityAt_snd (s : Store) (proof : VerifiedRouteTimeLadder)
    (now : UInt64) : (s.consumeCapabilityAt proof now).2 =
    (s.revalidateCapabilityAt proof now).2 := by
  unfold consumeCapabilityAt
  rcases s.revalidateCapabilityAt proof now with ⟨_ | _, _⟩ <;> rfl

omit [Blake2b] [Secp] in
theorem Store.capabilityTransaction_db
    {committed : Committed Unit} (ran : capabilityTransaction proof now s = .ok committed) :
    committed.db = s.db := by
  simp only [capabilityTransaction, bind_eq_ok, pure_eq_ok] at ran
  obtain ⟨-, -, -, -, -, -, rfl⟩ := ran
  rfl

theorem Store.ladderTransaction_db {committed : Committed VerifiedRouteTimeLadder}
    (ran : ladderTransaction context now s = .ok committed) : committed.db = s.db := by
  simp only [ladderTransaction, bind_eq_ok, pure_eq_ok] at ran
  obtain ⟨-, -, -, -, -, -, -, -, -, -, -, -, -, -, -, -, -, -, -, -, -, -, rfl⟩ := ran
  rfl

/-- **A call changes the database by committed transactions only.** -/
theorem Call.becomes_run (current : s.Current)
    (timeline : s.db.Shows t) (call : Call) : s.Becomes (call.run s) := by
  have kept : ∀ {now : UInt64} {clocked : Store}, s.advanceClockDurably now = .ok clocked →
      clocked.Current ∧ clocked.db.Shows t := by
    intro now clocked advanced
    refine ⟨current.becomes (becomes_clocked advanced), ?_⟩
    obtain ⟨-, later, rfl⟩ := advanceClockDurably_eq_ok.mp advanced
    exact { timeline with }
  cases call with
  | installPolicy signed context now =>
    refine becomes_transact fun clocked committed checked advanced ran => ?_
    have pinned := pinned_of_validateCallContext checked
    rw [← (becomes_clocked advanced).config, (kept advanced).1.pins] at pinned
    exact policyTransaction_changed pinned ran
  | installEvidence signed context now =>
    exact becomes_transact fun clocked committed _ advanced ran =>
      evidenceTransaction_changed (kept advanced).2 ran
  | proveRouteLadder context now =>
    refine becomes_transact fun clocked committed _ _ ran => ?_
    rw [ladderTransaction_db ran]
  | revalidateCapabilityAt proof now =>
    refine becomes_transact fun clocked committed _ _ ran => ?_
    rw [capabilityTransaction_db ran]
  | consumeCapabilityAt proof now =>
    rw [run, consumeCapabilityAt_snd]
    refine becomes_transact fun clocked committed _ _ ran => ?_
    rw [capabilityTransaction_db ran]

theorem Call.becomes_of_ends (current : s.Current)
    (timeline : s.db.Shows t) {call : Call} (ending : left ∈ call.ends s) : s.Becomes left := by
  simp only [ends, List.mem_cons, List.not_mem_nil, or_false] at ending
  rcases ending with rfl | rfl | rfl
  · exact .refl left
  · unfold clocked
    split
    · rename_i advanced
      exact becomes_clocked advanced
    · exact .refl s
  · exact call.becomes_run current timeline

omit [Secp] in
/-- What opening a store does. -/
theorem Store.openExisting_eq_ok {db : Db} {config : StoreConfig} :
    openExisting db config = .ok s ↔ config.validate = .ok () ∧ db.pins = config ∧
      db.openingEpoch ≠ 0 ∧ db.history.length ≤ maxHistoryRows ∧
      db.validateRetainedEncoding config = .ok () ∧
      ∃ openingEpoch, checkedAdd db.openingEpoch 1 = some openingEpoch ∧
        s = { db := { db with openingEpoch }, config, openingEpoch } := by
  simp only [openExisting, Db.validateMeta, bind_eq_ok, rejectIf_eq_ok, not_or, not_not,
    Db.enforceHistoryBound_eq_ok, okOr_eq_ok, pure_eq_ok]
  constructor
  · rintro ⟨_, valid, _, ⟨pins, epoch⟩, _, bounded, _, audited, e, next, rfl⟩
    exact ⟨valid, pins, epoch, bounded, audited, e, next, rfl⟩
  · rintro ⟨valid, pins, epoch, bounded, audited, e, next, rfl⟩
    exact ⟨(), valid, (), ⟨pins, epoch⟩, (), bounded, (), audited, e, next, rfl⟩

/-- What a run never changes of the database. -/
structure Db.Outlives (db db' : Db) : Prop where
  pins : db'.pins = db.pins
  policy : ∀ row ∈ db.policy, db'.policy = some row

variable {n n' : Node}

/-- **A step is a number of admissions to the timeline**, and keeps pins and policy. -/
theorem Step.refines (timeline : n.Shows t) (step : Step n n') :
    ∃ t', Timeline.Grown EvidenceRow.FollowsRow t t' ∧ n'.Shows t' ∧ n.db.Outlives n'.db := by
  cases step with
  | called s left call ending =>
    have becomes := Call.becomes_of_ends (timeline.current s rfl) timeline.db ending
    obtain ⟨t', grown, shown⟩ := timeline.db.changed becomes.db
    have keeps := becomes.db.keeps
    refine ⟨t', grown, ⟨shown, ?_⟩, keeps.pins, keeps.policy⟩
    rintro s' same
    cases same
    exact (timeline.current s rfl).becomes becomes
  | crashed s left call ending =>
    have becomes := Call.becomes_of_ends (timeline.current s rfl) timeline.db ending
    obtain ⟨t', grown, shown⟩ := timeline.db.changed becomes.db
    have keeps := becomes.db.keeps
    exact ⟨t', grown, ⟨shown, fun _ same => by cases same⟩, keeps.pins, keeps.policy⟩
  | opened db config s accepted =>
    obtain ⟨-, pins, -, -, -, epoch, -, rfl⟩ := openExisting_eq_ok.mp accepted
    refine ⟨t, .refl, ⟨{ timeline.db with }, ?_⟩, rfl, fun _ h => h⟩
    rintro s' same
    cases same
    exact ⟨pins.symm, rfl⟩
  | interrupted db config s accepted =>
    obtain ⟨-, -, -, -, -, epoch, -, rfl⟩ := openExisting_eq_ok.mp accepted
    exact ⟨t, .refl, ⟨{ timeline.db with }, fun _ same => by cases same⟩, rfl, fun _ h => h⟩

/-- **A run is a number of admissions to the timeline**, and keeps pins and policy. -/
theorem Run.refines (timeline : n.Shows t) (run : Run n n') :
    ∃ t', Timeline.Grown EvidenceRow.FollowsRow t t' ∧ n'.Shows t' ∧ n.db.Outlives n'.db := by
  induction run with
  | refl => exact ⟨t, .refl, timeline, rfl, fun _ h => h⟩
  | tail _ step ih =>
    obtain ⟨middle, grown, shown, pins, policy⟩ := ih
    obtain ⟨t', grown', shown', pins', policy'⟩ := step.refines shown
    exact ⟨t', grown.trans grown', shown', pins'.trans pins,
      fun row h => policy' row (policy row h)⟩

/-- **Every reachable node shows a timeline.** -/
theorem Reachable.shows (reachable : Reachable n) : ∃ t, n.Shows t := by
  obtain ⟨config, s, created, run⟩ := reachable
  simp only [create, bind_eq_ok, pure_eq_ok] at created
  obtain ⟨-, -, rfl⟩ := created
  have start : (Node.running ⟨Db.created config, config, 1⟩).Shows .fresh := by
    refine ⟨Db.shows_created config, ?_⟩
    rintro s same
    cases same
    exact ⟨rfl, rfl⟩
  obtain ⟨t, -, shown, -⟩ := run.refines start
  exact ⟨t, shown⟩

/-! ## What successful calls read -/

/-- What a successful `proveRouteLadder` read and proved. -/
theorem Store.proveRouteLadder_eq_ok (proved : s.proveRouteLadder context now = (.ok proof, left)) :
    s.validateContext context = .ok () ∧ left.db = { s.db with clockHighWater := now } ∧
      ∃ (policy : PolicyRow) (row : EvidenceRow), s.db.policy = some policy ∧
        s.db.current = some row ∧ row.status = .active ∧
        policy.signed.canonicalBytes = .ok policy.signed ∧
        policy.signed.verifyAuthenticity context.policy = .ok policy.signed.policy ∧
        row.signed.canonicalBytes = .ok row.signed ∧
        row.signed.verifyAuthenticity context.evidenceAuthorities policy.signed.policy =
          .ok row.signed.evidence ∧
        proveLadder policy.signed.policy row.signed.evidence context.policy.upstream
          context.policy.downstream now s.db.revision s.openingEpoch = .ok proof := by
  unfold proveRouteLadder at proved
  rcases s.transact_cases (s.validateContext context) now (ladderTransaction context now) with
    ⟨e, ran⟩ | ⟨clocked, accepted, advanced, ⟨e, -, ran⟩ | ⟨committed, transaction, ran⟩⟩
  · rw [ran] at proved
    cases proved
  · rw [ran] at proved
    cases proved
  · have unchanged := ladderTransaction_db transaction
    obtain ⟨-, -, rfl⟩ := advanceClockDurably_eq_ok.mp advanced
    rw [ran, Prod.mk.injEq] at proved
    obtain ⟨answer, rfl⟩ := proved
    simp only [ladderTransaction, Db.loadPolicy, bind_eq_ok, okOr_eq_ok, rejectIf_eq_ok, not_not,
      pure_eq_ok, SignedRouteTimePolicy.decode_eq_ok, SignedRouteTimePolicy.verify_eq_ok,
      SignedRouteTimeEvidence.decode_eq_ok, SignedRouteTimeEvidence.verify_eq_ok] at transaction
    obtain ⟨_, -, _, -, signedPolicy, ⟨policy, bound, canonicalPolicy⟩, _, ⟨authenticPolicy, -⟩,
      row, present, _, -, _, active, signedEvidence, canonical, _, ⟨authentic, -⟩, _, -, proof',
      ladder, rfl⟩ := transaction
    obtain ⟨-, -, rfl⟩ := SignedRouteTimePolicy.canonicalBytes_eq_ok.mp canonicalPolicy
    obtain ⟨-, rfl⟩ := SignedRouteTimeEvidence.canonicalBytes_eq_ok.mp canonical
    obtain ⟨rfl, -⟩ := SignedRouteTimePolicy.verifyAuthenticity_eq_ok.mp authenticPolicy
    obtain ⟨rfl, -⟩ := SignedRouteTimeEvidence.verifyAuthenticity_eq_ok.mp authentic
    obtain rfl := Except.ok.inj answer
    exact ⟨accepted, rfl, policy, row, bound, present, active, canonicalPolicy, authenticPolicy,
      canonical, authentic, ladder⟩

omit [Blake2b] [Secp] in
/-- What a successful `consumeCapabilityAt` read and returned, and when. -/
theorem Store.consumeCapabilityAt_eq_ok {capability : CurrentRouteTimeLadder}
    (consumed : s.consumeCapabilityAt proof now = (.ok capability, left)) :
    capability = ⟨proof, now⟩ ∧ proof.issuedAtSeconds ≤ now ∧ now < proof.validUntilSeconds ∧
      ∃ row, s.db.current = some row ∧ row.status = .active := by
  unfold consumeCapabilityAt revalidateCapabilityAt at consumed
  rcases s.transact_cases (.ok ()) now (capabilityTransaction proof now) with
    ⟨e, ran⟩ | ⟨clocked, -, advanced, ⟨e, -, ran⟩ | ⟨committed, transaction, ran⟩⟩
  · rw [ran] at consumed
    cases consumed
  · rw [ran] at consumed
    cases consumed
  · obtain ⟨-, -, rfl⟩ := advanceClockDurably_eq_ok.mp advanced
    simp only [capabilityTransaction, revalidateCapability, bind_eq_ok, okOr_eq_ok, rejectIf_eq_ok,
      pure_eq_ok, UInt64.not_lt, UInt64.not_le, not_or, not_not] at transaction
    obtain ⟨-, ⟨row, present, -, -, -, -, active⟩, -, issued, -, valid, rfl⟩ := transaction
    rw [ran] at consumed
    obtain ⟨same, -⟩ := Prod.mk.injEq _ _ _ _ ▸ consumed
    exact ⟨(Except.ok.inj same).symm, issued, valid, row, present, active⟩

end Runs

end DomProtocol.Route
