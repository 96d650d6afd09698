import DomProtocol.Route.TimePolicy
import DomProtocol.Route.LegBlinding

/-! # Composed bindings (`route-composer`, `lib.rs`)

A composed route binds two settlements. **`ComposedBindingV2.bind`** and
**`ComposedBindingV3.bind`** accept the terms of both together with a ladder capability of the time
authority, of which only the **`V2TimeProofFacts`** are used. In version 2 both settlements are
locked to one adaptor point. In version 3 each leg has its own lock point, and a relation proof
shows that somebody knows the offset between them, but not that it is small. The upstream leg can be
claimed with the witness revealed downstream exactly when offset and witness have the sizes of
derived ones (`claimable_iff_inRange`). -/

namespace DomProtocol.Route

open Settlement (Digest32 SettlementState SettlementTerms LegTerms LegRole sec1Tag Blake2b)

open Settlement.Blake2b (blake2b256)

/-- Refusals of a composition. -/
inductive ComposerRefusal where
  | invalidTerms
  | invalidAdaptorPoint
  | adaptorPointMismatch
  | settlementsNotDistinct
  | hubChainMismatch
  | hubAssetMismatch
  | hubProfileMismatch
  | invalidHubMechanism
  | routeIntentMismatch
  | routePolicyMismatch
  | unsafeRecoveryPolicy
  | timeAnchorMismatch
  | invalidTimeAnchorProof
  | domTransitMismatch
  | fundingOutOfOrder
  | wrongSecret
  | equalLegPoints
  | relationProofRefused
  | witnessTranslationRefused
  deriving DecidableEq, Repr

/-- Which side of the composition a step refers to. -/
inductive ComposedLeg where
  | upstream
  | downstream
  deriving DecidableEq

/-! ## Facts of the time capability -/

/-- The facts of a ladder that a binding commits to. -/
structure V2TimeProofFacts where
  upstreamTermsHash : Digest32
  downstreamTermsHash : Digest32
  routeScopeDigest : Digest32
  policyDigest : Digest32
  evidenceDigest : Digest32
  bindingDigest : Digest32
  evidenceSequence : UInt64
  issuedAtSeconds : UInt64
  validUntilSeconds : UInt64
  validatedAtSeconds : UInt64
  hub : LadderIntervalProof
  counterparty : LadderIntervalProof
  deriving DecidableEq

/-- The facts of a ladder proof that was validated at a second. -/
def VerifiedRouteTimeLadder.facts (proof : VerifiedRouteTimeLadder) (validatedAt : UInt64) :
    V2TimeProofFacts where
  upstreamTermsHash := proof.upstreamTermsHash
  downstreamTermsHash := proof.downstreamTermsHash
  routeScopeDigest := proof.routeScopeDigest
  policyDigest := proof.policyDigest
  evidenceDigest := proof.evidenceDigest
  bindingDigest := proof.bindingDigest
  evidenceSequence := proof.evidenceSequence
  issuedAtSeconds := proof.issuedAtSeconds
  validUntilSeconds := proof.validUntilSeconds
  validatedAtSeconds := validatedAt
  hub := proof.hub
  counterparty := proof.counterparty

/-- The facts of a current capability. -/
def CurrentRouteTimeLadder.facts (ladder : CurrentRouteTimeLadder) : V2TimeProofFacts :=
  ladder.proof.facts ladder.validatedAtSeconds

/-- The facts of a historical ladder. -/
def VerifiedFrozenRouteTimeLadder.facts (ladder : VerifiedFrozenRouteTimeLadder) :
    V2TimeProofFacts :=
  ladder.proof.facts ladder.validatedAtSeconds

/-- Whether a rung is ordered, with a positive margin and no overflow. -/
def timeRungIsConservative (rung : LadderIntervalProof) : Bool :=
  rung.marginSeconds ≠ 0 && rung.upstream.earliestSeconds ≤ rung.upstream.latestSeconds &&
    rung.downstream.earliestSeconds ≤ rung.downstream.latestSeconds &&
    (checkedAdd rung.downstream.latestSeconds rung.marginSeconds).any
      (· ≤ rung.upstream.earliestSeconds)

/-- The conditions on the facts themselves. -/
def V2TimeProofFacts.check (facts : V2TimeProofFacts) : Except ComposerRefusal Unit :=
  rejectIf (facts.policyDigest = 0 ∨ facts.evidenceDigest = 0 ∨ facts.bindingDigest = 0 ∨
    facts.evidenceSequence = 0 ∨ facts.validatedAtSeconds < facts.issuedAtSeconds ∨
    facts.validUntilSeconds ≤ facts.validatedAtSeconds ∨ ¬ timeRungIsConservative facts.hub ∨
    ¬ timeRungIsConservative facts.counterparty) .invalidTimeAnchorProof

/-! ## The shape of a route -/

/-- The rules both versions share: two valid, distinct settlements of one intent and policy. -/
def validatePair (upstream downstream : SettlementTerms) : Except ComposerRefusal Unit := do
  mapError (fun _ => .invalidTerms) upstream.validate
  mapError (fun _ => .invalidTerms) downstream.validate
  rejectIf (upstream.intentHash ≠ downstream.intentHash) .routeIntentMismatch
  rejectIf (upstream.policyVersion ≠ downstream.policyVersion) .routePolicyMismatch
  rejectIf (¬ upstream.recovery.refundBeforeFunding ∨ ¬ downstream.recovery.refundBeforeFunding)
    .unsafeRecoveryPolicy
  rejectIf (upstream.settlementId = downstream.settlementId ∨
    upstream.sessionId = downstream.sessionId) .settlementsNotDistinct

/-- The rules of the shared hub: one chain, asset, profile and mechanism, and one amount. -/
def validateHub (upstream downstream : SettlementTerms) : Except ComposerRefusal Unit := do
  rejectIf (upstream.domLeg.chainId ≠ downstream.domLeg.chainId) .hubChainMismatch
  rejectIf (upstream.domLeg.assetId ≠ downstream.domLeg.assetId) .hubAssetMismatch
  rejectIf (upstream.domLeg.adapterProfileHash ≠ downstream.domLeg.adapterProfileHash)
    .hubProfileMismatch
  rejectIf (upstream.domLeg.mechanism ≠ .domAdaptor2of2 ∨
    downstream.domLeg.mechanism ≠ .domAdaptor2of2) .invalidHubMechanism
  rejectIf (upstream.domLeg.amount ≠ downstream.domLeg.amount) .domTransitMismatch

section Bind

variable [Blake2b] [Curve]

/-- The route shape of version 2: one adaptor point, on the curve. -/
def validateV2RouteShape (upstream downstream : SettlementTerms) : Except ComposerRefusal Unit := do
  validatePair upstream downstream
  rejectIf (upstream.adaptorPointSec1 ≠ downstream.adaptorPointSec1) .adaptorPointMismatch
  let _ ← okOr .invalidAdaptorPoint (adaptorPoint upstream.adaptorPointSec1)
  validateHub upstream downstream

/-- The route shape of version 3, in which the lock points are checked elsewhere. -/
def validateV3RouteShape (upstream downstream : SettlementTerms) : Except ComposerRefusal Unit := do
  validatePair upstream downstream
  validateHub upstream downstream

/-- The lock points of version 3: both on the curve, and different. -/
def validateV3LegPoints (upstream downstream : SettlementTerms) : Except ComposerRefusal Unit := do
  let _ ← okOr .invalidAdaptorPoint (adaptorPoint upstream.adaptorPointSec1)
  let _ ← okOr .invalidAdaptorPoint (adaptorPoint downstream.adaptorPointSec1)
  rejectIf (upstream.adaptorPointSec1 = downstream.adaptorPointSec1) .equalLegPoints

/-- The capability is the one of these terms, in this order. -/
def requireTimeAnchor (upstream downstream : SettlementTerms) (scope : Digest32)
    (facts : V2TimeProofFacts) : Except ComposerRefusal Unit := do
  let upstreamTermsHash ← mapError (fun _ => .invalidTerms) upstream.termsHash
  let downstreamTermsHash ← mapError (fun _ => .invalidTerms) downstream.termsHash
  rejectIf (facts.upstreamTermsHash ≠ upstreamTermsHash ∨
    facts.downstreamTermsHash ≠ downstreamTermsHash ∨ facts.routeScopeDigest ≠ scope)
    .timeAnchorMismatch

/-- The octets both digests commit to: terms, scope and time facts. -/
def bindingOctets (upstream downstream : SettlementTerms) (scope : Digest32)
    (facts : V2TimeProofFacts) : Except ComposerRefusal Bytes := do
  let upstreamBytes ← mapError (fun _ => .invalidTerms) upstream.canonicalBytes
  let downstreamBytes ← mapError (fun _ => .invalidTerms) downstream.canonicalBytes
  pure (lengthPrefixed upstreamBytes ++ lengthPrefixed downstreamBytes ++ scope.toList ++
    facts.policyDigest.toList ++ facts.evidenceDigest.toList ++ facts.bindingDigest.toList ++
    beBytes 8 facts.evidenceSequence.toNat ++ beBytes 8 facts.issuedAtSeconds.toNat ++
    beBytes 8 facts.validUntilSeconds.toNat ++ beBytes 8 facts.validatedAtSeconds.toNat ++
    putRung facts.hub ++ putRung facts.counterparty)

/-! ## Version 2 -/

/-- **A composition under one adaptor point.** -/
structure ComposedBindingV2 where
  upstream : SettlementTerms
  downstream : SettlementTerms
  routeScopeDigest : Digest32
  facts : V2TimeProofFacts
  bindingDigest : Digest32

namespace ComposedBindingV2

/-- Validate a composition and freeze it with the facts of a ladder. -/
def bindWithTimeFacts (upstream downstream : SettlementTerms) (facts : V2TimeProofFacts) :
    Except ComposerRefusal ComposedBindingV2 := do
  validateV2RouteShape upstream downstream
  let scope ← mapError (fun _ => .timeAnchorMismatch)
    (Route.routeScopeDigest upstream downstream)
  requireTimeAnchor upstream downstream scope facts
  facts.check
  let octets ← bindingOctets upstream downstream scope facts
  pure {
    upstream, downstream, facts
    routeScopeDigest := scope
    bindingDigest := blake2b256 (utf8 "DOM-INTEROP/COMPOSED-BINDING/V2\x00" ++ octets) }

/-- **Binding** with a current capability. -/
def bind (upstream downstream : SettlementTerms) (timeProof : CurrentRouteTimeLadder) :
    Except ComposerRefusal ComposedBindingV2 :=
  bindWithTimeFacts upstream downstream timeProof.facts

/-- **Recovery** of a binding from the historical ladder. -/
def bindRecovered (upstream downstream : SettlementTerms)
    (timeProof : VerifiedFrozenRouteTimeLadder) : Except ComposerRefusal ComposedBindingV2 :=
  bindWithTimeFacts upstream downstream timeProof.facts

end ComposedBindingV2

/-! ## Version 3 -/

/-- **A composition whose legs have their own lock points.** -/
structure ComposedBindingV3 where
  upstream : SettlementTerms
  downstream : SettlementTerms
  routeScopeDigest : Digest32
  facts : V2TimeProofFacts
  offsetRelationProof : OffsetRelationProof
  bindingDigestPreimage : Digest32
  bindingDigest : Digest32

/-- The digest of version 3, with the relation proof only in its final form. -/
def v3BindingDigest (upstream downstream : SettlementTerms) (scope : Digest32)
    (facts : V2TimeProofFacts) (proof : Option OffsetRelationProof) :
    Except ComposerRefusal Digest32 := do
  let octets ← bindingOctets upstream downstream scope facts
  pure (blake2b256 (utf8 "DOM-INTEROP/COMPOSED-BINDING/V3\x00" ++ octets ++
    upstream.adaptorPointSec1.toList ++ downstream.adaptorPointSec1.toList ++
    (proof.map OffsetRelationProof.toCanonicalBytes).getD []))

namespace ComposedBindingV3

/-- Validate a composition with its relation proof and freeze it. -/
def bindWithTimeFacts (upstream downstream : SettlementTerms) (facts : V2TimeProofFacts)
    (offsetRelationProof : OffsetRelationProof) : Except ComposerRefusal ComposedBindingV3 := do
  validateV3LegPoints upstream downstream
  let relationPoint ← mapError (fun _ => .relationProofRefused)
    (relationPointFromCommittedLegs upstream.adaptorPointSec1 downstream.adaptorPointSec1)
  let scope ← mapError (fun _ => .timeAnchorMismatch)
    (Route.routeScopeDigest upstream downstream)
  let bindingDigestPreimage ← v3BindingDigest upstream downstream scope facts none
  mapError (fun _ => .relationProofRefused)
    (verifyOffsetRelation relationPoint offsetRelationProof bindingDigestPreimage)
  validateV3RouteShape upstream downstream
  requireTimeAnchor upstream downstream scope facts
  facts.check
  let bindingDigest ←
    v3BindingDigest upstream downstream scope facts (some offsetRelationProof)
  pure { upstream, downstream, facts, offsetRelationProof, bindingDigestPreimage, bindingDigest
         routeScopeDigest := scope }

/-- **Binding** with a current capability. -/
def bind (upstream downstream : SettlementTerms) (timeProof : CurrentRouteTimeLadder)
    (offsetRelationProof : OffsetRelationProof) : Except ComposerRefusal ComposedBindingV3 :=
  bindWithTimeFacts upstream downstream timeProof.facts offsetRelationProof

/-- **Recovery** of a binding from the historical ladder. -/
def bindRecovered (upstream downstream : SettlementTerms)
    (timeProof : VerifiedFrozenRouteTimeLadder) (offsetRelationProof : OffsetRelationProof) :
    Except ComposerRefusal ComposedBindingV3 :=
  bindWithTimeFacts upstream downstream timeProof.facts offsetRelationProof

/-- The lock point of a leg. -/
def lockPointSec1 (binding : ComposedBindingV3) : ComposedLeg → Octets 33
  | .upstream => binding.upstream.adaptorPointSec1
  | .downstream => binding.downstream.adaptorPointSec1

/-- **The hand-off of one leg**: a scalar seen on its chain is accepted as its witness if it is in
the cross-curve range and opens its lock point. -/
def verifyRevealedLegScalar (binding : ComposedBindingV3) (leg : ComposedLeg)
    (observed : Octets 32) : Except ComposerRefusal LegWitness :=
  if high : 0x10 ≤ observed.toList.headD 0 then .error .wrongSecret
  else
    match opens : adaptorPointOfScalar observed with
    | none => .error .wrongSecret
    | some point =>
      if point ≠ binding.lockPointSec1 leg then .error .wrongSecret
      else
        .ok {
          bytes := observed
          pos := (adaptorPointOfScalar_eq_some.mp opens).1
          lt := by
            rw [UInt8.not_le, headD_lt_iff] at high
            exact high }

/-- **The translation of the downstream witness** into the upstream one, which must open the
upstream lock point. -/
def translateRevealedDownstreamWitness (binding : ComposedBindingV3)
    (revealedDownstream : LegWitness) (offset : LegOffset) :
    Except ComposerRefusal LegWitness := do
  let translated ← mapError (fun _ => .witnessTranslationRefused)
    (translateWitness revealedDownstream offset)
  let point ← okOr .witnessTranslationRefused (adaptorPointOfScalar translated.bytes)
  rejectIf (point ≠ binding.upstream.adaptorPointSec1) .witnessTranslationRefused
  pure translated

end ComposedBindingV3

end Bind

/-! ## What a version 3 binding guarantees -/

namespace ComposedBindingV3

section Opening

variable [Curve]

variable {binding : ComposedBindingV3} {revealed : LegWitness} {encoded : Octets 33}

/-- **A number opens a lock point** if the point is that multiple of the generator. -/
def Opens (n : ℕ) (encoded : Octets 33) : Prop := fromSec1 encoded = some (n • generator)

/-- **A number is the offset** between the lock points of a binding. -/
def IsOffset (binding : ComposedBindingV3) (d : ℕ) : Prop :=
  ∃ up down : Point, fromSec1 binding.upstream.adaptorPointSec1 = some up ∧
    fromSec1 binding.downstream.adaptorPointSec1 = some down ∧ up - down = d • generator

/-- **The upstream leg is claimable**: some offset in range turns whatever scalar opens the
downstream lock point into a witness that opens the upstream one. -/
def Claimable (binding : ComposedBindingV3) : Prop :=
  ∃ offset : LegOffset, binding.IsOffset offset.bytes.toNat ∧
    ∀ w : Octets 32, w.toNat < groupOrder → Opens w.toNat binding.downstream.adaptorPointSec1 →
      ∃ revealed, binding.verifyRevealedLegScalar .downstream w = .ok revealed ∧
        ∃ translated, binding.translateRevealedDownstreamWitness revealed offset = .ok translated ∧
          Opens translated.bytes.toNat binding.upstream.adaptorPointSec1

/-- **The legs are in range**: a witness opens the downstream leg, and it and the offset have the
sizes of derived ones. -/
def InRange (binding : ComposedBindingV3) : Prop :=
  ∃ w d : ℕ, 0 < d ∧ d < 2 ^ 251 ∧ w + d < 2 ^ 252 ∧
    Opens w binding.downstream.adaptorPointSec1 ∧ Opens (w + d) binding.upstream.adaptorPointSec1

theorem verifyRevealedLegScalar_eq_ok {leg : ComposedLeg} {observed : Octets 32} :
    binding.verifyRevealedLegScalar leg observed = .ok revealed ↔
      observed.toNat < 2 ^ 252 ∧
        adaptorPointOfScalar observed = some (binding.lockPointSec1 leg) ∧
        revealed.bytes = observed := by
  unfold verifyRevealedLegScalar
  split
  · rename_i high
    have : ¬ observed.toNat < 2 ^ 252 := by
      rw [← UInt8.not_lt, headD_lt_iff] at high
      exact high
    exact ⟨fun h => (by cases h), fun h => absurd h.1 this⟩
  · rename_i high
    have low : observed.toNat < 2 ^ 252 := by
      rw [UInt8.not_le, headD_lt_iff] at high
      exact high
    split
    · rename_i closed
      simp [closed]
    · rename_i point opens
      split
      · rename_i other
        simp [opens, other]
      · rename_i same
        rw [not_not] at same
        rw [Except.ok.injEq, LegWitness.ext_iff]
        exact ⟨fun h => ⟨low, same ▸ opens, h.symm⟩, fun h => h.2.2.symm⟩

theorem translateRevealedDownstreamWitness_eq_ok {translated : LegWitness} {offset : LegOffset} :
    binding.translateRevealedDownstreamWitness revealed offset = .ok translated ↔
      revealed.bytes.toNat + offset.bytes.toNat < 2 ^ 252 ∧
        translated.bytes.toNat = revealed.bytes.toNat + offset.bytes.toNat ∧
        adaptorPointOfScalar translated.bytes = some binding.upstream.adaptorPointSec1 := by
  simp only [translateRevealedDownstreamWitness, bind_eq_ok, mapError_eq_ok, rejectIf_eq_ok,
    okOr_eq_ok, pure_eq_ok, not_not, translateWitness_eq_ok]
  constructor
  · rintro ⟨sum, ⟨fits, adds⟩, point, opens, _, rfl, rfl⟩
    exact ⟨fits, adds, opens⟩
  · rintro ⟨fits, adds, opens⟩
    exact ⟨translated, ⟨fits, adds⟩, _, opens, (), rfl, rfl⟩

variable [LawfulCurve]

/-- A canonical scalar opens a lock point exactly when the code finds its point. -/
theorem opens_iff {t : Octets 32} (small : t.toNat < groupOrder) :
    Opens t.toNat encoded ↔ adaptorPointOfScalar t = some encoded := by
  constructor
  · intro opens
    exact (adaptorPointOfScalar_eq_iff opens).mpr ⟨small, rfl⟩
  · intro opens
    obtain ⟨positive, -, same⟩ := adaptorPointOfScalar_eq_some.mp opens
    have hne : t.toNat • (generator : Point) ≠ 0 := by
      rw [Ne, LawfulCurve.generates.nsmul_eq_zero_iff small]
      omega
    rw [Opens, ← same]
    exact LawfulCurve.fromSec1_toSec1 hne

/-- What opens a lock point is unique below the group order. -/
theorem Opens.unique {m n : ℕ} (hm : Opens m encoded) (hn : Opens n encoded)
    (small : m < groupOrder) (small' : n < groupOrder) : m = n := by
  rw [Opens, hm, Option.some.injEq] at hn
  exact LawfulCurve.generates.log_unique small small' hn

/-- **Claimable means in range**: the translation over the integers agrees with the addition of
points exactly for legs of the sizes of derived ones. -/
theorem claimable_iff_inRange
    (locked : ∃ w < groupOrder, Opens w binding.downstream.adaptorPointSec1) :
    binding.Claimable ↔ binding.InRange := by
  have order : 2 ^ 252 < groupOrder := by decide
  have width : groupOrder < 2 ^ 256 := by decide
  constructor
  · rintro ⟨offset, -, claims⟩
    obtain ⟨w, small, opens⟩ := locked
    have octets : (BitVec.ofNat 256 w).toNat = w := by
      rw [BitVec.toNat_ofNat, Nat.mod_eq_of_lt (small.trans width)]
    obtain ⟨revealed, accepted, translated, sum, up⟩ := claims (BitVec.ofNat 256 w)
      (octets.symm ▸ small) (octets.symm ▸ opens)
    obtain ⟨-, -, same⟩ := verifyRevealedLegScalar_eq_ok.mp accepted
    obtain ⟨fits, adds, -⟩ := translateRevealedDownstreamWitness_eq_ok.mp sum
    rw [same, octets] at fits adds
    rw [adds] at up
    exact ⟨w, offset.bytes.toNat, offset.pos, offset.lt, fits, opens, up⟩
  · rintro ⟨w, d, positive, bounded, fits, down, up⟩
    have octets : (BitVec.ofNat 256 d).toNat = d := by
      rw [BitVec.toNat_ofNat, Nat.mod_eq_of_lt (by omega)]
    refine ⟨⟨BitVec.ofNat 256 d, octets.symm ▸ positive, octets.symm ▸ bounded⟩, ?_, ?_⟩
    · refine ⟨(w + d) • generator, w • generator, up, down, ?_⟩
      rw [octets, add_nsmul, add_sub_cancel_left]
    · intro w' small opens
      obtain rfl : w = w'.toNat := down.unique opens (by omega) small
      have revealed := (opens_iff small).mp opens
      have pos := (adaptorPointOfScalar_eq_some.mp revealed).1
      refine ⟨⟨w', pos, by omega⟩, verifyRevealedLegScalar_eq_ok.mpr ⟨by omega, revealed, rfl⟩, ?_⟩
      have sum : (BitVec.ofNat 256 (w'.toNat + d)).toNat = w'.toNat + d := by
        rw [BitVec.toNat_ofNat, Nat.mod_eq_of_lt (by omega)]
      have canonical : (BitVec.ofNat 256 (w'.toNat + d)).toNat < groupOrder := by omega
      refine ⟨⟨BitVec.ofNat 256 (w'.toNat + d), by omega, by omega⟩,
        translateRevealedDownstreamWitness_eq_ok.mpr ⟨by rw [octets]; exact fits,
          by rw [octets, sum], (opens_iff canonical).mp (sum.symm ▸ up)⟩, sum.symm ▸ up⟩

end Opening

section Guarantee

variable [Blake2b] [Curve]

omit [Blake2b] in
theorem adaptorPoint_eq_some {encoded : Octets 33} {p : Point}
    (decoded : adaptorPoint encoded = some p) : fromSec1 encoded = some p := by
  unfold adaptorPoint at decoded
  split at decoded
  · cases decoded
  · exact decoded

/-- **What binding checks**: the terms are kept, and the lock points are two different points of
the curve with a verified relation proof. -/
theorem bind_eq_ok_iff {upstream downstream : SettlementTerms} {timeProof : CurrentRouteTimeLadder}
    {proof : OffsetRelationProof} {binding : ComposedBindingV3}
    (accepted : bind upstream downstream timeProof proof = .ok binding) :
    binding.upstream = upstream ∧ binding.downstream = downstream ∧
      ∃ up down : Point, fromSec1 upstream.adaptorPointSec1 = some up ∧
        fromSec1 downstream.adaptorPointSec1 = some down ∧ up - down ≠ 0 ∧
        verifyOffsetRelation (up - down) proof binding.bindingDigestPreimage = .ok () := by
  simp only [bind, bindWithTimeFacts, relationPointFromCommittedLegs, bind_eq_ok, mapError_eq_ok,
    okOr_eq_ok, rejectIf_eq_ok, pure_eq_ok] at accepted
  obtain ⟨_, -, _, ⟨up, hup, down, hdown, _, differ, rfl⟩, _, -, _, -, _, verified, _, -, _, -, _, -,
    _, -, rfl⟩ := accepted
  exact ⟨rfl, rfl, up, down, hup, hdown, differ, verified⟩

/-- **What an accepted binding guarantees.** Its lock points differ by exactly one multiple of the
generator below the group order. The upstream leg can be claimed from whatever opens the downstream
one exactly when the legs are in range, which the binding does not check, and so in particular if
witness and offset were derived. -/
theorem claimable_of_derived [LawfulCurve] {upstream downstream : SettlementTerms}
    {timeProof : CurrentRouteTimeLadder} {proof : OffsetRelationProof}
    {binding : ComposedBindingV3}
    (accepted : bind upstream downstream timeProof proof = .ok binding) :
    (∃ d, 0 < d ∧ d < groupOrder ∧ binding.IsOffset d ∧
      ∀ e < groupOrder, binding.IsOffset e → e = d) ∧
    (binding.Claimable ↔ binding.InRange) ∧
    ∀ (routeSeed routeId : Octets 32) (leg fromLeg toLeg : UInt8) (witness : LegWitness)
      (offset : LegOffset), deriveLegWitness routeSeed routeId leg = .ok witness →
      deriveLegOffset routeSeed routeId fromLeg toLeg = .ok offset →
      Opens witness.bytes.toNat downstream.adaptorPointSec1 →
      Opens (witness.bytes.toNat + offset.bytes.toNat) upstream.adaptorPointSec1 →
      binding.Claimable := by
  obtain ⟨rfl, rfl, up, down, hup, hdown, differ, -⟩ := bind_eq_ok_iff accepted
  obtain ⟨w, small, opened⟩ := LawfulCurve.generates.exists_log down
  have locked : ∃ w < groupOrder, Opens w binding.downstream.adaptorPointSec1 :=
    ⟨w, small, by rw [Opens, hdown, opened]⟩
  refine ⟨?_, claimable_iff_inRange locked, ?_⟩
  · obtain ⟨d, below, same⟩ := LawfulCurve.generates.exists_log (up - down)
    have positive : d ≠ 0 := fun zero => differ (by rw [← same, zero, zero_nsmul])
    refine ⟨d, by omega, below, ⟨up, down, hup, hdown, same.symm⟩, ?_⟩
    rintro e below' ⟨up', down', hup', hdown', same'⟩
    rw [hup, Option.some.injEq] at hup'
    rw [hdown, Option.some.injEq] at hdown'
    subst hup' hdown'
    exact LawfulCurve.generates.log_unique below' below (same'.symm.trans same.symm)
  · intro routeSeed routeId leg fromLeg toLeg witness offset derived _ downOpens upOpens
    have bounded := deriveLegWitness_lt derived
    have room := offset.lt
    exact (claimable_iff_inRange locked).mpr ⟨witness.bytes.toNat, offset.bytes.toNat, offset.pos,
      offset.lt, by omega, downOpens, upOpens⟩

end Guarantee

/-! ### A route whose offset is too large -/

section Example

/-- A hash for the example: every digest is `1`. -/
@[reducible] def exampleHash : Blake2b where
  blake2b256 _ := 1

/-- The tag octet `2` in front of 32 octets. -/
def exampleTag : ℕ := 256 ^ 32 * 2

instance : NeZero groupOrder := ⟨by decide⟩

/-- **A curve for the example**: the integers modulo the group order, and the encoding of a number
is the number behind the tag octet `2`. -/
@[reducible] def exampleCurve : Curve where
  Point := ZMod groupOrder
  generator := 1
  fromSec1 encoded :=
    if exampleTag < encoded.toNat ∧ encoded.toNat < exampleTag + groupOrder then
      some ((encoded.toNat - exampleTag : ℕ) : ZMod groupOrder)
    else none
  toSec1 p := BitVec.ofNat (8 * 33) (exampleTag + p.val)

attribute [local instance] exampleHash exampleCurve

/-- The encoded point of a number. -/
def examplePoint (n : ℕ) : Octets 33 := BitVec.ofNat (8 * 33) (exampleTag + n)

theorem toNat_examplePoint {n : ℕ} (small : n < groupOrder) :
    (examplePoint n).toNat = exampleTag + n := by
  have room : exampleTag + groupOrder < 2 ^ (8 * 33) := by
    rw [Octets.two_pow_eight_mul]
    decide
  rw [examplePoint, BitVec.toNat_ofNat,
    Nat.mod_eq_of_lt ((Nat.add_lt_add_left small _).trans room)]

theorem sec1Tag_examplePoint {n : ℕ} (small : n < groupOrder) : sec1Tag (examplePoint n) = 2 := by
  have width : groupOrder < 256 ^ 32 := by decide
  apply UInt8.toNat_inj.mp
  rw [sec1Tag, Octets.toNat_headD_toList, toNat_examplePoint small,
    exampleTag, Nat.mul_add_div (by positivity),
    Nat.div_eq_of_lt (small.trans width)]
  rfl

theorem opens_examplePoint {n : ℕ} (positive : 0 < n) (small : n < groupOrder) :
    Opens n (examplePoint n) := by
  have decoded : (examplePoint n).toNat - exampleTag = n := by
    rw [toNat_examplePoint small, Nat.add_sub_cancel_left]
  have inside : exampleTag < (examplePoint n).toNat ∧
      (examplePoint n).toNat < exampleTag + groupOrder := by
    rw [toNat_examplePoint small]
    omega
  show (if _ then _ else _) = some (n • (1 : ZMod groupOrder))
  rw [if_pos inside, decoded, nsmul_one]

instance exampleCurve_lawful : LawfulCurve where
  generates := {
    order := ZMod.addOrderOf_one groupOrder
    pos := by decide
    covers := fun p => ⟨ZMod.val p, by
      show ZMod.val p • (1 : ZMod groupOrder) = p
      rw [nsmul_one, ZMod.natCast_zmod_val]⟩ }
  toSec1_of_fromSec1 := by
    intro encoded p denotes
    change (if _ then _ else _) = some p at denotes
    split at denotes
    · rename_i inside
      obtain ⟨above, below⟩ := inside
      obtain rfl := Option.some.inj denotes
      have val : ZMod.val ((encoded.toNat - exampleTag : ℕ) : ZMod groupOrder) =
          encoded.toNat - exampleTag := ZMod.val_cast_of_lt (by omega)
      constructor
      · show BitVec.ofNat (8 * 33) (exampleTag + ZMod.val _) = encoded
        rw [val, Nat.add_sub_cancel' above.le, BitVec.ofNat_toNat, BitVec.setWidth_eq]
      · intro zero
        have zeroVal := congrArg ZMod.val zero
        rw [val] at zeroVal
        have : ZMod.val (0 : ZMod groupOrder) = 0 := ZMod.val_zero
        omega
    · cases denotes
  fromSec1_toSec1 := by
    intro p hne
    have positive : 0 < ZMod.val p := Nat.pos_of_ne_zero fun zero =>
      hne ((ZMod.val_eq_zero p).mp zero)
    have opens := opens_examplePoint positive (ZMod.val_lt p)
    rw [Opens] at opens
    refine opens.trans (congrArg some ?_)
    show ZMod.val p • (1 : ZMod groupOrder) = p
    rw [nsmul_one, ZMod.natCast_zmod_val]

/-- The terms of one settlement of the example, locked to the point of a number. -/
def exampleTerms (id : Octets 32) (n : ℕ) : SettlementTerms :=
  { Settlement.exampleTerms id with adaptorPointSec1 := examplePoint n }

/-- A rung of the example. -/
def exampleRung : LadderIntervalProof where
  upstream := { earliestSeconds := 20, latestSeconds := 20 }
  downstream := { earliestSeconds := 10, latestSeconds := 10 }
  marginSeconds := 5

/-- The time capability of the example. -/
def exampleCapability : CurrentRouteTimeLadder where
  proof := {
    upstreamTermsHash := 1, downstreamTermsHash := 1, routeScopeDigest := 1, policyDigest := 1
    evidenceDigest := 1, hub := exampleRung, counterparty := exampleRung, bindingDigest := 1
    evidenceSequence := 1, issuedAtSeconds := 1, validUntilSeconds := 9, storeRevision := 2
    storeOpeningEpoch := 1 }
  validatedAtSeconds := 1

theorem validate_exampleTerms (id : Octets 32) {n : ℕ} (small : n < groupOrder) :
    (exampleTerms id n).validate = .ok () := by
  have tag : sec1Tag (exampleTerms id n).adaptorPointSec1 = 2 := sec1Tag_examplePoint small
  simp only [SettlementTerms.validate, tag]
  rfl

theorem adaptorPoint_examplePoint {n : ℕ} (positive : 0 < n) (small : n < groupOrder) :
    adaptorPoint (examplePoint n) = some (n • generator) := by
  rw [adaptorPoint, if_neg (by simp [sec1Tag_examplePoint small])]
  exact opens_examplePoint positive small

/-- The binding of the example, for an offset. -/
def exampleBinding (x : ℕ) : ComposedBindingV3 where
  upstream := exampleTerms 1 (1 + x)
  downstream := exampleTerms 2 1
  routeScopeDigest := 1
  facts := exampleCapability.facts
  offsetRelationProof := relationProofOf x 1 1
  bindingDigestPreimage := 1
  bindingDigest := 1

/-- **Binding accepts every offset** that leaves the upstream number below the group order. -/
theorem bind_example {x : ℕ} (positive : 0 < x) (small : 1 + x < groupOrder) :
    bind (exampleTerms 1 (1 + x)) (exampleTerms 2 1) exampleCapability (relationProofOf x 1 1) =
      .ok (exampleBinding x) := by
  have one : 1 < groupOrder := by decide
  have upValid := validate_exampleTerms 1 small
  have downValid := validate_exampleTerms 2 one
  have upPoint : adaptorPoint (exampleTerms 1 (1 + x)).adaptorPointSec1 = _ :=
    adaptorPoint_examplePoint (by omega) small
  have downPoint : adaptorPoint (exampleTerms 2 1).adaptorPointSec1 = _ :=
    adaptorPoint_examplePoint one_pos one
  have differ : (exampleTerms 1 (1 + x)).adaptorPointSec1 ≠ (exampleTerms 2 1).adaptorPointSec1 := by
    intro same
    have := congrArg BitVec.toNat same
    change (examplePoint (1 + x)).toNat = (examplePoint 1).toNat at this
    rw [toNat_examplePoint small, toNat_examplePoint one] at this
    omega
  have points : validateV3LegPoints (exampleTerms 1 (1 + x)) (exampleTerms 2 1) = .ok () := by
    simp only [validateV3LegPoints, upPoint, downPoint, okOr_some, rejectIf_of_not _ differ]
    rfl
  have relation : relationPointFromCommittedLegs (exampleTerms 1 (1 + x)).adaptorPointSec1
      (exampleTerms 2 1).adaptorPointSec1 = .ok (x • generator) := by
    have difference : (1 + x) • (generator : Point) - 1 • generator = x • generator := by
      rw [add_nsmul, add_sub_cancel_left]
    have nonzero : x • (generator : Point) ≠ 0 := by
      rw [Ne, LawfulCurve.generates.nsmul_eq_zero_iff (by omega)]
      omega
    simp only [relationPointFromCommittedLegs, bind_eq_ok, okOr_eq_ok, rejectIf_eq_ok, pure_eq_ok]
    exact ⟨_, adaptorPoint_eq_some upPoint, _, adaptorPoint_eq_some downPoint, (),
      difference ▸ nonzero, difference⟩
  have octets : ∀ facts, ∃ encoded,
      bindingOctets (exampleTerms 1 (1 + x)) (exampleTerms 2 1) 1 facts = .ok encoded := by
    intro facts
    simp only [bindingOctets, SettlementTerms.canonicalBytes, upValid, downValid]
    exact ⟨_, rfl⟩
  have digest : ∀ facts proof, v3BindingDigest (exampleTerms 1 (1 + x)) (exampleTerms 2 1) 1 facts
      proof = .ok 1 := by
    intro facts proof
    obtain ⟨encoded, encodes⟩ := octets facts
    rw [v3BindingDigest, encodes]
    rfl
  have scope : Route.routeScopeDigest (exampleTerms 1 (1 + x)) (exampleTerms 2 1) = .ok 1 := by
    simp only [Route.routeScopeDigest, SettlementTerms.canonicalBytes, upValid, downValid]
    rfl
  have shape : validateV3RouteShape (exampleTerms 1 (1 + x)) (exampleTerms 2 1) = .ok () := by
    simp only [validateV3RouteShape, validatePair, upValid, downValid]
    rfl
  have anchor : requireTimeAnchor (exampleTerms 1 (1 + x)) (exampleTerms 2 1) 1
      exampleCapability.facts = .ok () := by
    simp only [requireTimeAnchor, SettlementTerms.termsHash, SettlementTerms.canonicalBytes,
      upValid, downValid]
    rfl
  have believed := verifyOffsetRelation_relationProofOf x 1 one_pos one
  simp only [bind, bindWithTimeFacts, bind_eq_ok, mapError_eq_ok, pure_eq_ok]
  exact ⟨(), points, _, relation, _, scope, _, digest _ _, (), believed, (), shape, (), anchor, (),
    rfl, _, digest _ _, rfl⟩

/-- Binding the legs of witness `1` and offset `1` is covered by the guarantee. -/
theorem claimable_of_derived_one : (exampleBinding 1).Claimable :=
  (claimable_of_derived (bind_example one_pos (by decide))).2.1.mpr
    ⟨1, 1, by decide, by decide, by decide, opens_examplePoint one_pos (by decide),
      opens_examplePoint (by decide) (by decide)⟩

/-- **An accepted route that strands its upstream leg**: the downstream point is the generator and
the offset is `2 ^ 251`. The relation proof is accepted, and the upstream leg is not claimable. -/
theorem bind_accepts_unclaimable : LawfulCurve ∧
    ∃ (upstream downstream : SettlementTerms) (timeProof : CurrentRouteTimeLadder)
      (proof : OffsetRelationProof) (binding : ComposedBindingV3),
      bind upstream downstream timeProof proof = .ok binding ∧ binding.IsOffset (2 ^ 251) ∧
        Opens 1 downstream.adaptorPointSec1 ∧ ¬ binding.Claimable := by
  have small : 1 + 2 ^ 251 < groupOrder := by decide
  have down : Opens 1 (examplePoint 1) := opens_examplePoint one_pos (by decide)
  have up : Opens (1 + 2 ^ 251) (examplePoint (1 + 2 ^ 251)) :=
    opens_examplePoint (by decide) small
  refine ⟨inferInstance, _, _, _, _, _, bind_example (by decide) small,
    ⟨(1 + 2 ^ 251) • generator, 1 • generator, up, down, ?_⟩, down, ?_⟩
  · rw [add_nsmul, add_sub_cancel_left]
  · rw [claimable_iff_inRange ⟨1, by decide, down⟩]
    rintro ⟨w, d, -, bounded, fits, down', up'⟩
    have order : 2 ^ 252 < groupOrder := by decide
    have first : w = 1 := down'.unique down (by omega) (by decide)
    have second : w + d = 1 + 2 ^ 251 := up'.unique up (by omega) small
    omega

end Example

end ComposedBindingV3

end DomProtocol.Route
