import DomProtocol.Route.Contradiction
import DomProtocol.Route.Composer

/-! # Recovering an admission

A route admission consumes a ladder capability and freezes a checkpoint of it. The history of the
store keeps the evidence the ladder was proved from, and the policy is frozen, so the ladder can be
proved again at its original second whatever has happened to the route since (**`Recovers`**,
`recovers_admission`). The audit passes on every database that shows a timeline
(`Db.Shows.audited`), and a ladder proof does not depend on the opening it was issued under
(`proveLadder_store`). -/

namespace DomProtocol.Route

open Settlement (Digest32 SettlementTerms Blake2b)

section Keyed

variable {α κ : Type} {key : α → κ} {items : List α} {item : α} {p : α → Bool}

/-- With distinct keys, a search that fixes the key finds the item. -/
theorem find?_of_nodup (nodup : (items.map key).Nodup) (mem : item ∈ items) (holds : p item)
    (fixes : ∀ other, p other → key other = key item) : items.find? p = some item := by
  obtain ⟨before, after, rfl⟩ := List.append_of_mem mem
  rw [List.find?_eq_some_iff_append]
  refine ⟨holds, before, after, rfl, fun other earlier => ?_⟩
  rw [Bool.not_eq_true', Bool.eq_false_iff]
  intro found
  rw [List.map_append, List.nodup_append] at nodup
  exact nodup.2.2 (key other) (List.mem_map_of_mem earlier) (key item) (by simp)
    (fixes other found)

/-- With distinct keys, a selection that fixes the key selects one item. -/
theorem length_filter_of_nodup (nodup : (items.map key).Nodup) (mem : item ∈ items)
    (holds : p item) (fixes : ∀ other, p other → key other = key item) :
    (items.filter p).length = 1 := by
  obtain ⟨before, after, rfl⟩ := List.append_of_mem mem
  rw [List.map_append, List.map_cons, List.nodup_append, List.nodup_cons] at nodup
  obtain ⟨-, ⟨later, -⟩, apart⟩ := nodup
  have noneBefore : before.filter p = [] := List.filter_eq_nil_iff.mpr fun other earlier found =>
    apart (key other) (List.mem_map_of_mem earlier) (key item) (by simp) (fixes other found)
  have noneAfter : after.filter p = [] := List.filter_eq_nil_iff.mpr fun other earlier found =>
    later (fixes other found ▸ List.mem_map_of_mem earlier)
  rw [List.filter_append, noneBefore, List.filter_cons_of_pos holds, noneAfter]
  rfl

end Keyed

/-! ## The audit passes -/

section Audit

variable [Blake2b]

omit [Blake2b] in
theorem corrupt_eq_ok {α : Type} {x : Except RouteTimeError α} {a : α} :
    corrupt x = .ok a ↔ x = .ok a := mapError_eq_ok

namespace EvidenceRow.Sound

variable {policy : PolicyRow} {row : EvidenceRow}

variable (sound : row.Sound policy)
include sound

theorem sequence : row.sequence = row.signed.evidence.sequence := by
  rw [sound.columns]; rfl

theorem observedAt :
    row.observedAt = row.signed.evidence.observedAtSeconds := by rw [sound.columns]; rfl

theorem expiresAt :
    row.expiresAt = row.signed.evidence.expiresAtSeconds := by rw [sound.columns]; rfl

theorem digest : row.digest = row.signed.evidence.evidenceDigest := by
  rw [sound.columns]; rfl

theorem policyDigest : row.policyDigest = policy.digest := by
  rw [sound.columns]; rfl

/-- A row stays sound when it is invalidated. -/
theorem invalidated : EvidenceRow.Sound policy { row with status := .invalidated } where
  decodes := sound.decodes
  valid := sound.valid
  columns := by
    have columns := sound.columns
    rw [columns]
    rfl

/-- **A sound row passes the audit** if its status fits. -/
theorem auditRow (pinned : policy.signed.policy.policyDigest = .ok policy.digest)
    (seen : AuditState) :
    Route.auditRow policy.signed.policy policy.digest seen row = match row.status with
      | .active => do
        rejectIf (∃ previous ∈ seen.previousActive, ¬ Follows previous row.signed.evidence)
          .corruptState
        pure { seen with previousActive := some row.signed.evidence }
      | .conflict => do
        rejectIf (seen.conflictSequence.isSome) .corruptState
        pure { seen with conflictSequence := some row.signed.evidence.sequence }
      | .invalidated => .error .corruptState := by
  have named := (RouteTimeEvidence.policyDigest_of_validateAt sound.valid pinned).1
  have decodes := corrupt_eq_ok.mpr sound.decodes
  have valid := corrupt_eq_ok.mpr sound.valid
  have columns : ¬ (row.digest ≠ row.signed.evidence.evidenceDigest ∨
      row.sequence ≠ row.signed.evidence.sequence ∨ row.policyDigest ≠ policy.digest ∨
      row.signed.evidence.policyDigest ≠ policy.digest ∨
      row.observedAt ≠ row.signed.evidence.observedAtSeconds ∨
      row.expiresAt ≠ row.signed.evidence.expiresAtSeconds) := by
    rw [sound.digest, sound.sequence, sound.policyDigest, sound.observedAt, sound.expiresAt, named]
    simp
  cases status : row.status <;>
    simp only [Route.auditRow, decodes, ok_bind, valid, rejectIf_of_not _ columns, status]

end EvidenceRow.Sound

namespace Db.Shows

variable {db : Db} {t : Timeline EvidenceRow} {policy : PolicyRow}

/-- The audit of the admitted rows ends with the last one. -/
theorem audit_admitted (pinned : policy.signed.policy.policyDigest = .ok policy.digest)
    {rows : List EvidenceRow} (chained : List.IsChain EvidenceRow.FollowsRow rows)
    (sound : ∀ row ∈ rows, row.Sound policy) (active : ∀ row ∈ rows, row.status = .active) :
    rows.foldlM (auditRow policy.signed.policy policy.digest) ⟨none, none⟩ =
      .ok ⟨none, rows.getLast?.map (·.signed.evidence)⟩ := by
  induction rows using List.reverseRecOn with
  | nil => rfl
  | append_singleton rows row ih =>
    obtain ⟨earlier, -, follows⟩ := List.isChain_append.mp chained
    have before := ih earlier (fun r h => sound r (List.mem_append_left _ h))
      (fun r h => active r (List.mem_append_left _ h))
    have last := (sound row (by simp)).auditRow pinned
      ⟨none, rows.getLast?.map (·.signed.evidence)⟩
    rw [active row (by simp)] at last
    have accepted : ¬ ∃ previous ∈ rows.getLast?.map (·.signed.evidence),
        ¬ Follows previous row.signed.evidence := by
      rintro ⟨previous, found, refused⟩
      obtain ⟨row', latest, rfl⟩ := Option.mem_map.mp found
      exact refused (follows row' latest row rfl)
    rw [List.foldlM_append, before, ok_bind, List.foldlM_cons, last, rejectIf_of_not _ accepted,
      List.getLast?_append]
    rfl

/-- The sequences of admitted rows increase. -/
theorem pairwise_admitted (timeline : db.Shows t) (bound : db.policy = some policy)
    (recorded : ∀ row ∈ t.admitted, row ∈ t.rows) :
    t.admitted.Pairwise fun left right => left.sequence < right.sequence := by
  have sound := fun row h => timeline.rows policy bound row (recorded row h)
  let Before : EvidenceRow → EvidenceRow → Prop := fun left right =>
    left.signed.evidence.sequence < right.signed.evidence.sequence
  have : Trans Before Before Before := ⟨fun first second => UInt64.lt_trans first second⟩
  have chained : List.IsChain Before t.admitted := timeline.chained.imp fun _ _ follows => follows.1
  refine (List.isChain_iff_pairwise.mp chained).imp_of_mem fun {left right} hl hr before => ?_
  rw [(sound left hl).sequence, (sound right hr).sequence]
  exact before

/-- The recorded rows stand in the order of the audit. -/
theorem sorted (timeline : db.Shows t) (bound : db.policy = some policy) :
    db.history.mergeSort historyOrder = db.history := by
  rw [timeline.history]
  refine List.mergeSort_of_pairwise ?_
  have ordered : ∀ {rows : List EvidenceRow},
      rows.Pairwise (fun left right => left.sequence < right.sequence) →
      rows.Pairwise (fun left right => historyOrder left right) := fun increasing =>
    increasing.imp fun {left right} before => by simp [historyOrder, before]
  cases t with
  | fresh => exact List.Pairwise.nil
  | live older last => exact ordered (timeline.pairwise_admitted bound fun _ h => h)
  | dead older last conflict =>
    have increasing := timeline.pairwise_admitted bound fun row h => by
      rw [Timeline.rows, show older ++ [last, conflict] = (older ++ [last]) ++ [conflict] by simp]
      exact List.mem_append_left _ h
    obtain ⟨status, ahead⟩ := timeline.statuses.2 older last conflict rfl
    rw [Timeline.rows, show older ++ [last, conflict] = (older ++ [last]) ++ [conflict] by simp,
      List.pairwise_append]
    refine ⟨ordered increasing, List.pairwise_singleton _ _, fun left admitted right conflicts => ?_⟩
    obtain rfl := List.mem_singleton.mp conflicts
    have active := timeline.statuses.1 left admitted
    -- The conflict stands behind the last row, by its sequence or by its status.
    have upTo : left.sequence ≤ last.sequence := by
      rcases mem_snoc.mp admitted with earlier | rfl
      · exact UInt64.le_of_lt ((List.pairwise_append.mp increasing).2.2 left earlier last (by simp))
      · exact UInt64.le_refl _
    rcases UInt64.lt_or_eq_of_le (UInt64.le_trans upTo ahead) with before | same
    · simp [historyOrder, before]
    · simp [historyOrder, same, active, status, EvidenceStatus.tag]

/-- What the audit has seen after the whole history. -/
def seenAfter : Timeline EvidenceRow → AuditState
  | .fresh => ⟨none, none⟩
  | .live _ last => ⟨none, some last.signed.evidence⟩
  | .dead _ last conflict =>
    ⟨some conflict.signed.evidence.sequence, some last.signed.evidence⟩

/-- The audit reads the whole history. -/
theorem audit_history (timeline : db.Shows t) (bound : db.policy = some policy) :
    db.history.foldlM (auditRow policy.signed.policy policy.digest) ⟨none, none⟩ =
      .ok (seenAfter t) := by
  have pinned := (timeline.policy policy bound).digest
  have sound := timeline.rows policy bound
  rw [timeline.history]
  cases t with
  | fresh => rfl
  | live older last =>
    have admitted := audit_admitted pinned timeline.chained sound timeline.statuses.1
    rw [Timeline.admitted, List.getLast?_append] at admitted
    exact admitted
  | dead older last conflict =>
    have split : older ++ [last, conflict] = (older ++ [last]) ++ [conflict] := by simp
    rw [Timeline.rows, split] at sound ⊢
    have admitted := audit_admitted pinned timeline.chained
      (fun row h => sound row (List.mem_append_left _ h)) timeline.statuses.1
    have conflicts := (sound conflict (by simp)).auditRow pinned
      ⟨none, some last.signed.evidence⟩
    rw [(timeline.statuses.2 older last conflict rfl).1] at conflicts
    rw [Timeline.admitted, List.getLast?_append] at admitted
    rw [List.foldlM_append, admitted, ok_bind, List.foldlM_cons]
    exact congrArg (· >>= fun seen => List.foldlM _ seen []) conflicts

/-- A sound current row passes the audit. -/
theorem audit_row (timeline : db.Shows t) (bound : db.policy = some policy) {row : EvidenceRow}
    {seen : AuditState} {kept : EvidenceRow} (present : db.current = some row)
    (sound : row.Sound policy) (latest : seen.previousActive = some row.signed.evidence)
    (status : statusIsConsistent row seen.conflictSequence) (recorded : kept ∈ db.history)
    (active : kept.status = .active) (same : kept.digest = row.digest)
    (signed : kept.signed = row.signed) :
    db.auditCurrent policy.signed.policy policy.digest seen = .ok () := by
  have pinned := (timeline.policy policy bound).digest
  have named := (RouteTimeEvidence.policyDigest_of_validateAt sound.valid pinned).1
  have reconciled : reconcileEvidenceRow row row.signed.evidence = .ok () := by
    rw [reconcileEvidenceRow, rejectIf_eq_ok, sound.digest, sound.sequence, sound.policyDigest,
      sound.observedAt, sound.expiresAt, named]
    simp
  have columns : ¬ (row.policyDigest ≠ policy.digest ∨
      row.sequence ≠ row.signed.evidence.sequence ∨
      row.digest ≠ row.signed.evidence.evidenceDigest ∨
      ¬ statusIsConsistent row seen.conflictSequence) := by
    rw [sound.digest, sound.sequence, sound.policyDigest]
    simp [status]
  have retained : ¬ (db.history.filter fun old => old.digest = row.digest ∧ old.status = .active ∧
      old.signed = row.signed).length ≠ 1 := by
    rw [not_not]
    refine length_filter_of_nodup (timeline.history ▸ timeline.distinct) recorded ?_ ?_
    · simp [same, active, signed]
    · intro other found
      simp only [Bool.decide_and, Bool.and_eq_true, decide_eq_true_eq] at found
      exact found.1.trans same.symm
  simp only [Db.auditCurrent, present, corrupt_eq_ok.mpr sound.decodes,
    corrupt_eq_ok.mpr sound.valid, corrupt_eq_ok.mpr reconciled, ok_bind, latest, okOr_some,
    rejectIf_of_not _ columns, rejectIf_of_not _ retained]

/-- **The audit passes** on every database that shows a timeline. -/
theorem audited (timeline : db.Shows t) : db.validateRetainedEncoding db.pins = .ok () := by
  unfold Db.validateRetainedEncoding
  split
  · rename_i absent
    obtain ⟨rfl, zero⟩ := timeline.unbound absent
    rw [rejectIf_eq_ok, timeline.current, timeline.history, zero]
    simp [currentRow, Timeline.rows]
  · rename_i policy bound
    have sound := timeline.policy policy bound
    obtain ⟨static, -, -⟩ := SignedRouteTimePolicy.canonicalBytes_eq_ok.mp
      (SignedRouteTimePolicy.decode_eq_ok.mp sound.decodes)
    have decoded : policy.signed.policy.decode = .ok policy.signed.policy :=
      RouteTimePolicy.decode_eq_ok.mpr ⟨static, rfl⟩
    have pins : ¬ (policy.digest ≠ policy.digest ∨
        policy.signed.policy.networkId ≠ db.pins.networkId ∨
        policy.signed.policy.registryDigest ≠ db.pins.registryDigest ∨
        policy.signed.policy.routeScopeDigest ≠ db.pins.routeScopeDigest) := by
      rw [sound.network, sound.registry, sound.scope]
      simp
    have count := timeline.revision (by simp [bound])
    simp only [corrupt_eq_ok.mpr sound.decodes, corrupt_eq_ok.mpr decoded,
      corrupt_eq_ok.mpr sound.digest, ok_bind, rejectIf_of_not _ pins, timeline.sorted bound,
      timeline.audit_history bound, rejectIf_of_not _ (not_not.mpr count)]
    -- What remains is the current row.
    have rows := timeline.rows policy bound
    have recorded : ∀ row ∈ t.rows, row ∈ db.history := fun row h => timeline.history ▸ h
    cases t with
    | fresh =>
      have absent : db.current = none := timeline.current
      have empty : db.history = [] := timeline.history
      simp [Db.auditCurrent, absent, empty, seenAfter]
    | live older last =>
      have mem : last ∈ (Timeline.live older last).rows := by simp [Timeline.rows]
      have active := timeline.statuses.1 last mem
      exact timeline.audit_row bound timeline.current (rows last mem) rfl
        (by simp [statusIsConsistent, seenAfter, active]) (recorded last mem) active rfl rfl
    | dead older last conflict =>
      have mem : last ∈ (Timeline.dead older last conflict).rows := by simp [Timeline.rows]
      have mem' : conflict ∈ (Timeline.dead older last conflict).rows := by simp [Timeline.rows]
      have active := timeline.statuses.1 last (by simp [Timeline.admitted])
      have ahead := (timeline.statuses.2 older last conflict rfl).2
      rw [(rows conflict mem').sequence] at ahead
      exact timeline.audit_row bound timeline.current (rows last mem).invalidated rfl
        (by simp [statusIsConsistent, seenAfter, ahead]) (recorded last mem) active rfl rfl

end Db.Shows

end Audit

/-! ## Ladders are proved again -/

section Ladder

variable [Blake2b] {policy : RouteTimePolicy} {evidence : RouteTimeEvidence}
  {upstream downstream : SettlementTerms} {now revision openingEpoch : UInt64}
  {proof : VerifiedRouteTimeLadder}

omit [Blake2b] in
theorem horizonEnd_le {deadline : Settlement.TimelockSpec} {checkpoint : CanonicalTimeCheckpoint}
    {horizon validUntil result : UInt64}
    (h : horizonEnd deadline checkpoint horizon validUntil = .ok result) :
    result.toNat ≤ validUntil.toNat := by
  unfold horizonEnd at h
  split at h
  · simp only [bind_eq_ok, pure_eq_ok] at h
    obtain ⟨_, -, rfl⟩ := h
    rw [UInt64.toNat_min]
    exact Nat.min_le_left _ _
  · rw [pure_eq_ok] at h
    rw [h]

omit [Blake2b] in
theorem proofValidUntil_le {result : UInt64}
    (h : proofValidUntil policy evidence upstream downstream = .ok result) :
    result.toNat ≤ evidence.expiresAtSeconds.toNat := by
  simp only [proofValidUntil, bind_eq_ok] at h
  obtain ⟨first, hfirst, hresult⟩ := h
  have below := (horizonEnd_le hresult).trans (horizonEnd_le hfirst)
  rw [UInt64.toNat_min] at below
  exact below.trans (Nat.min_le_left _ _)

/-- **What a ladder proof records** of its policy, its evidence and its second. -/
theorem proveLadder_records
    (proved : proveLadder policy evidence upstream downstream now revision openingEpoch = .ok proof) :
    evidence.validateAt policy now = .ok () ∧ policy.policyDigest = .ok proof.policyDigest ∧
      proof.routeScopeDigest = policy.routeScopeDigest ∧
      proof.evidenceDigest = evidence.evidenceDigest ∧
      proof.evidenceSequence = evidence.sequence ∧ proof.issuedAtSeconds = now ∧
      proof.validUntilSeconds ≤ evidence.expiresAtSeconds := by
  simp only [proveLadder, bind_eq_ok, rejectIf_eq_ok, not_or, not_not, pure_eq_ok] at proved
  obtain ⟨_, valid, _, -, _, -, _, -, _, ⟨-, -, scope⟩, _, -, _, -, _, -, _, digest, horizon,
    hhorizon, _, -, rfl⟩ := proved
  refine ⟨valid, digest, scope, rfl, rfl, rfl, ?_⟩
  have below := proofValidUntil_le hhorizon
  rw [UInt64.le_iff_toNat_le]
  simp only [UInt64.toNat_min]
  omega

/-- **A ladder proof is the same under every revision and opening**, but for these two numbers. -/
theorem proveLadder_store
    (proved : proveLadder policy evidence upstream downstream now revision openingEpoch = .ok proof)
    (revision' openingEpoch' : UInt64) :
    proveLadder policy evidence upstream downstream now revision' openingEpoch' =
      .ok { proof with storeRevision := revision', storeOpeningEpoch := openingEpoch' } := by
  simp only [proveLadder, bind_eq_ok, pure_eq_ok] at proved ⊢
  obtain ⟨a, ha, b, hb, c, hc, d, hd, e, he, f, hf, g, hg, i, hi, j, hj, k, hk, l, hl, rfl⟩ := proved
  exact ⟨a, ha, b, hb, c, hc, d, hd, e, he, f, hf, g, hg, i, hi, j, hj, k, hk, l, hl, rfl⟩

end Ladder

/-! ## Admissions are recovered -/

section Recovery

variable [Blake2b] [Secp]

variable {s : Store} {t : Timeline EvidenceRow} {openingEpoch : UInt64} {n n' : Node}

/-- **An admission**: a ladder proof is issued by an open store, and after some run a capability is
consumed from it. -/
structure Admission where
  context : EvidenceContext
  policy : PolicyRow
  evidence : EvidenceRow
  proof : VerifiedRouteTimeLadder
  capability : CurrentRouteTimeLadder
  left : Store

/-- **How an admission comes about.** -/
structure Admission.Made (admission : Admission) : Prop where
  steps : ∃ (issuer issued consumer : Store) (issuedAt consumedAt : UInt64),
    Reachable (.running issuer) ∧
      issuer.proveRouteLadder admission.context issuedAt = (.ok admission.proof, issued) ∧
      issued.db.policy = some admission.policy ∧ issued.db.current = some admission.evidence ∧
      Run (.running issued) (.running consumer) ∧
      consumer.consumeCapabilityAt admission.proof consumedAt =
        (.ok admission.capability, admission.left)

/-- The checkpoint an admission freezes. -/
def Admission.freeze (admission : Admission) :
    Except RouteTimeError FrozenRouteTimeProofCheckpoint := do
  let proof := admission.capability.proof
  let ancestry ← FrozenRouteTimeCheckpoint.new proof.routeScopeDigest proof.policyDigest
    proof.evidenceDigest proof.evidenceSequence
  FrozenRouteTimeProofCheckpoint.new ancestry proof.bindingDigest proof.issuedAtSeconds
    proof.validUntilSeconds admission.capability.validatedAtSeconds

theorem Store.validateContext_congr {s' : Store} (same : s'.config = s.config)
    (context : EvidenceContext) : s'.validateContext context = s.validateContext context := by
  simp only [validateContext, validateCallContext, same]

omit [Blake2b] [Secp] in
/-- **A frozen checkpoint agrees with its capability.** -/
theorem Admission.freeze_eq_ok {admission : Admission}
    {checkpoint : FrozenRouteTimeProofCheckpoint} (frozen : admission.freeze = .ok checkpoint) :
    checkpoint = {
      ancestry := {
        routeScopeDigest := admission.capability.proof.routeScopeDigest
        policyDigest := admission.capability.proof.policyDigest
        evidenceDigest := admission.capability.proof.evidenceDigest
        evidenceSequence := admission.capability.proof.evidenceSequence }
      proofDigest := admission.capability.proof.bindingDigest
      issuedAtSeconds := admission.capability.proof.issuedAtSeconds
      validUntilSeconds := admission.capability.proof.validUntilSeconds
      validatedAtSeconds := admission.capability.validatedAtSeconds } := by
  simp only [freeze, FrozenRouteTimeCheckpoint.new, FrozenRouteTimeProofCheckpoint.new, bind_eq_ok,
    pure_eq_ok] at frozen
  obtain ⟨_, ⟨-, -, rfl⟩, -, -, rfl⟩ := frozen
  rfl

/-- **A retained ladder is reconstructed**: from the frozen policy and a recorded active row, at the
second the ladder was proved. -/
theorem Store.verifyFrozenRouteLadder_eq_ok
    {context : EvidenceContext} {policy : PolicyRow} {row : EvidenceRow}
    {proof : VerifiedRouteTimeLadder} {issuedAt validatedAt revision : UInt64}
    (timeline : s.db.Shows t) (current : s.Current) (accepted : s.validateContext context = .ok ())
    (bound : s.db.policy = some policy) (recorded : row ∈ s.db.history)
    (active : row.status = .active)
    (authenticPolicy : policy.signed.verifyAuthenticity context.policy = .ok policy.signed.policy)
    (authentic : row.signed.verifyAuthenticity context.evidenceAuthorities policy.signed.policy =
      .ok row.signed.evidence)
    (ladder : proveLadder policy.signed.policy row.signed.evidence context.policy.upstream
      context.policy.downstream issuedAt revision openingEpoch = .ok proof)
    (issued : proof.issuedAtSeconds ≤ validatedAt) (valid : validatedAt < proof.validUntilSeconds) :
    s.verifyFrozenRouteLadder {
        ancestry := {
          routeScopeDigest := proof.routeScopeDigest
          policyDigest := proof.policyDigest
          evidenceDigest := proof.evidenceDigest
          evidenceSequence := proof.evidenceSequence }
        proofDigest := proof.bindingDigest
        issuedAtSeconds := proof.issuedAtSeconds
        validUntilSeconds := proof.validUntilSeconds
        validatedAtSeconds := validatedAt } policy.signed row.signed context =
      .ok ⟨{ proof with storeRevision := 0, storeOpeningEpoch := 0 }, validatedAt⟩ := by
  obtain ⟨validIssued, hdigest, scope, digest, sequence, second, horizon⟩ :=
    proveLadder_records ladder
  have policySound := timeline.policy policy bound
  have sound := timeline.rows policy bound row (timeline.history ▸ recorded)
  have named := RouteTimeEvidence.policyDigest_of_validateAt sound.valid policySound.digest
  have indexed : policy.digest = proof.policyDigest :=
    Except.ok.inj (policySound.digest.symm.trans hdigest)
  have bounded : s.db.enforceHistoryBound = .ok () :=
    Db.enforceHistoryBound_eq_ok.mpr timeline.bounded
  have audited : s.db.validateRetainedEncoding s.config = .ok () := current.pins ▸ timeline.audited
  have found : (s.db.history.find? fun old => old.digest = proof.evidenceDigest ∧
      old.sequence = proof.evidenceSequence) = some row := by
    refine find?_of_nodup (timeline.history ▸ timeline.distinct) recorded ?_ ?_
    · simp [sound.digest, sound.sequence, digest, sequence]
    · intro other selected
      simp only [Bool.decide_and, Bool.and_eq_true, decide_eq_true_eq] at selected
      rw [selected.1, digest, sound.digest]
  have again := proveLadder_store ladder 0 0
  rw [← second] at again
  have fresh : row.signed.evidence.validateAt policy.signed.policy validatedAt = .ok () := by
    refine RouteTimeEvidence.validateAt_later validIssued (second ▸ issued) ?_
    exact UInt64.lt_of_lt_of_le valid horizon
  have canonicalPolicy := SignedRouteTimePolicy.decode_eq_ok.mp policySound.decodes
  have canonical := SignedRouteTimeEvidence.decode_eq_ok.mp sound.decodes
  simp only [verifyFrozenRouteLadder, bind_eq_ok, okOr_eq_ok, rejectIf_eq_ok, pure_eq_ok]
  refine ⟨(), accepted, (), bounded, (), audited, _, canonicalPolicy, policy, bound, (), by simp, _,
    authenticPolicy, _, hdigest, (), ?_, _, canonical, row, found, (), ?_, _, authentic, (), ?_, _,
    again, (), fresh, (), ?_, rfl⟩
  · simp [indexed, scope]
  · simp [active]
  · simp [sound.digest, sound.sequence, sound.policyDigest, sound.observedAt, sound.expiresAt,
      named, digest, sequence, indexed, scope]
  · simp [issued, valid]

/-! ### Restarts -/

omit [Blake2b] [Secp] in
/-- The metadata of a database is in order. -/
def Db.Openable (db : Db) : Prop := db.pins.validate = .ok () ∧ db.openingEpoch ≠ 0

theorem Step.openable (timeline : n.Shows t)
    (step : Step n n') (openable : n.db.Openable) : n'.db.Openable := by
  have reopened : ∀ {db : Db} {config : StoreConfig} {s : Store},
      Store.openExisting db config = .ok s → db.Openable → s.db.Openable := by
    intro db config s accepted openable
    obtain ⟨-, -, -, -, -, epoch, next, rfl⟩ := Store.openExisting_eq_ok.mp accepted
    refine ⟨openable.1, fun zero => ?_⟩
    have count := toNat_of_checkedAdd_one next
    rw [show epoch = 0 from zero] at count
    cases count
  cases step with
  | called s left call ending | crashed s left call ending =>
    have keeps := (Call.becomes_of_ends (timeline.current s rfl) timeline.db ending).db.keeps
    exact ⟨keeps.pins ▸ openable.1, keeps.openingEpoch ▸ openable.2⟩
  | opened db config s accepted | interrupted db config s accepted =>
    exact reopened accepted openable

theorem Run.openable (timeline : n.Shows t)
    (run : Run n n') (openable : n.db.Openable) : n'.db.Openable := by
  induction run with
  | refl => exact openable
  | tail before step ih =>
    obtain ⟨t', -, shown, -⟩ := Run.refines timeline before
    exact step.openable shown ih

theorem Reachable.openable (reachable : Reachable n) : n.db.Openable := by
  obtain ⟨config, s, created, run⟩ := reachable
  obtain ⟨t, shown⟩ := Reachable.shows ⟨config, s, created, .refl⟩
  refine run.openable shown ?_
  simp only [Store.create, bind_eq_ok, pure_eq_ok] at created
  obtain ⟨_, valid, rfl⟩ := created
  exact ⟨valid, by simp [Node.db, Db.created]⟩

omit [Secp] in
/-- **A stopped store opens again** while its opening counter has room. -/
theorem Db.Shows.openExisting {db : Db} (timeline : db.Shows t) (openable : db.Openable)
    (room : checkedAdd db.openingEpoch 1 = some openingEpoch) :
    Store.openExisting db db.pins =
      .ok { db := { db with openingEpoch }, config := db.pins, openingEpoch } :=
  Store.openExisting_eq_ok.mpr ⟨openable.1, rfl, openable.2, timeline.bounded, timeline.audited,
    openingEpoch, room, rfl⟩

/-! ### The whole run -/

variable [Curve]

/-- **A store recovers an admission**: the ladder is reconstructed with the facts of the original
capability, and every binding with it is the original one. -/
def Store.Recovers (s : Store) (admission : Admission)
    (checkpoint : FrozenRouteTimeProofCheckpoint) : Prop :=
  ∃ ladder, s.verifyFrozenRouteLadder checkpoint admission.policy.signed admission.evidence.signed
      admission.context = .ok ladder ∧
    ladder.facts = admission.capability.facts ∧
    (∀ upstream downstream, ComposedBindingV2.bindRecovered upstream downstream ladder =
      ComposedBindingV2.bind upstream downstream admission.capability) ∧
    ∀ upstream downstream proof, ComposedBindingV3.bindRecovered upstream downstream ladder proof =
      ComposedBindingV3.bind upstream downstream admission.capability proof

/-- **Recovery at a node**: by the running store, or by the one a stopped node opens again. -/
def Node.Recovers (n : Node) (admission : Admission)
    (checkpoint : FrozenRouteTimeProofCheckpoint) : Prop :=
  match n with
  | .running s => s.Recovers admission checkpoint
  | .stopped db => checkedAdd db.openingEpoch 1 ≠ none →
      ∃ s, Store.openExisting db admission.left.config = .ok s ∧ s.Recovers admission checkpoint

/-- **Every admission is recovered at every node of every later run.** -/
theorem recovers_admission {admission : Admission} {checkpoint : FrozenRouteTimeProofCheckpoint}
    (made : admission.Made) (frozen : admission.freeze = .ok checkpoint) {n : Node}
    (run : Run (.running admission.left) n) : n.Recovers admission checkpoint := by
  obtain ⟨issuer, issued, consumer, issuedAt, consumedAt, reachable, proved, bound, present, between,
    consumed⟩ := made.steps
  obtain ⟨accepted, clocked, policy, row, bound', present', active, -, authenticPolicy, -,
    authentic, ladder⟩ := Store.proveRouteLadder_eq_ok proved
  obtain ⟨same, afterIssue, beforeEnd, -⟩ := Store.consumeCapabilityAt_eq_ok consumed
  -- The retained rows of the proof are the ones the admission names.
  rw [clocked] at bound present
  obtain rfl : policy = admission.policy := Option.some.inj (bound'.symm.trans bound)
  obtain rfl : row = admission.evidence := Option.some.inj (present'.symm.trans present)
  have point := Admission.freeze_eq_ok frozen
  rw [same] at point
  -- The proof, the consumption and the rest are one run.
  have proves : Step (.running issuer) (.running issued) :=
    .called issuer issued (.proveRouteLadder admission.context issuedAt)
      (by simp [Call.ends, Call.run, proved])
  have consumes : Step (.running consumer) (.running admission.left) :=
    .called consumer admission.left (.consumeCapabilityAt admission.proof consumedAt)
      (by simp [Call.ends, Call.run, consumed])
  have toLeft : Run (.running issuer) (.running admission.left) :=
    (Relation.ReflTransGen.head proves between).tail consumes
  have whole : Run (.running issuer) n := toLeft.trans run
  obtain ⟨t, timeline⟩ := reachable.shows
  obtain ⟨_, -, leftShown, leftOutlives⟩ := toLeft.refines timeline
  obtain ⟨t', grown, shown, outlives⟩ := whole.refines timeline
  have recorded : admission.evidence ∈ n.db.history := by
    rw [shown.db.history]
    exact (Timeline.rows_prefix_of_grown grown).subset (timeline.db.mem_of_active present' active)
  have frozenPolicy : n.db.policy = some admission.policy := outlives.policy _ bound'
  have pins := (timeline.current issuer rfl).pins
  have recovers : ∀ s : Store, s.db.Shows t' → s.Current → s.config = issuer.config →
      s.db.policy = n.db.policy → s.db.history = n.db.history →
      s.Recovers admission checkpoint := by
    intro s shown' current config samePolicy sameHistory
    have reconstructed := Store.verifyFrozenRouteLadder_eq_ok shown' current
      ((Store.validateContext_congr config admission.context).trans accepted)
      (samePolicy.trans frozenPolicy) (sameHistory ▸ recorded) active authenticPolicy authentic
      ladder afterIssue beforeEnd
    rw [← point] at reconstructed
    refine ⟨_, reconstructed, ?_, ?_, ?_⟩
    · rw [same]
      rfl
    · intro upstream downstream
      rw [same]
      rfl
    · intro upstream downstream proof
      rw [same]
      rfl
  cases n with
  | running s =>
    have current := shown.current s rfl
    refine recovers s shown.db current ?_ rfl rfl
    rw [current.pins, show s.db.pins = issuer.db.pins from outlives.pins, pins]
  | stopped db =>
    intro room
    obtain ⟨openingEpoch, next⟩ := Option.ne_none_iff_exists'.mp room
    have openable := whole.openable timeline reachable.openable
    have config : admission.left.config = db.pins := by
      rw [(leftShown.current _ rfl).pins,
        show admission.left.db.pins = issuer.db.pins from leftOutlives.pins]
      exact outlives.pins.symm
    rw [config]
    refine ⟨_, shown.db.openExisting openable next,
      recovers _ { shown.db with } ⟨rfl, rfl⟩ ?_ rfl rfl⟩
    rw [pins]
    exact outlives.pins

end Recovery

section Example

open ExampleRoute

attribute [local instance] sequenceHash openSecp ComposedBindingV3.exampleCurve

/-- The admission of a proof and a capability of the example. -/
def ExampleRoute.admission (proof : VerifiedRouteTimeLadder) (capability : CurrentRouteTimeLadder)
    (left : Store) : Admission :=
  ⟨context, policyRow, firstRow, proof, capability, left⟩

/-- **An admission is made and recovered**, right after it and after a restart. -/
theorem recovers_admission_example : ∃ admission checkpoint, admission.Made ∧
    admission.freeze = .ok checkpoint ∧
    (Node.running admission.left).Recovers admission checkpoint ∧
    (Node.stopped admission.left.db).Recovers admission checkpoint := by
  have runs : ((current.proveRouteLadder context 1002).1.toOption.any fun proof =>
      match (current.proveRouteLadder context 1002).2.consumeCapabilityAt proof 1003 with
      | (.ok capability, left) => (ExampleRoute.admission proof capability left).freeze.toOption.isSome
      | (.error _, _) => false) = true := by decide +kernel
  rcases proved : current.proveRouteLadder context 1002 with ⟨_ | proof, issued⟩
  · rw [proved] at runs
    cases runs
  · rw [proved] at runs
    simp only [Except.toOption, Option.any_some] at runs
    split at runs
    · rename_i capability left consumed
      cases frozen : (ExampleRoute.admission proof capability left).freeze with
      | error e =>
        rw [frozen] at runs
        cases runs
      | ok checkpoint =>
        obtain ⟨-, clocked, -⟩ := Store.proveRouteLadder_eq_ok proved
        have bound : issued.db.policy = some policyRow := by
          simpa only [clocked] using current_eq.1.1
        have present : issued.db.current = some firstRow := by
          simpa only [clocked] using current_eq.1.2.1
        have made : (ExampleRoute.admission proof capability left).Made :=
          ⟨current, issued, issued, 1002, 1003, reachable_current, proved, bound, present, .refl,
            consumed⟩
        exact ⟨_, checkpoint, made, frozen, recovers_admission made frozen .refl,
          recovers_admission made frozen (.single (.crashed left left
            (.consumeCapabilityAt proof 1003) (by simp [Call.ends])))⟩
    · cases runs

end Example

end DomProtocol.Route
