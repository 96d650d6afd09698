import DomProtocol.Settlement.Terms

/-! # Time policies and time evidence of a route (`route-time-anchor`, `types.rs`)

Deadlines on different chains do not share a clock. A **`RouteTimePolicy`** freezes, for the
**upstream** and the **downstream** settlement of a route, which authenticated checkpoint of each
chain is to be used, and **`RouteTimeEvidence`** is a revalidation of these checkpoints: a fixed
anchor block on each chain with the wall-clock interval it fell in, and the canonical tip above it.
From both, **`proveLadder`** projects the four deadlines to conservative intervals of seconds and
checks that the upstream ones mature a margin after the downstream ones. A policy is only accepted
if it is the one **`fromRegistryProfile`** rebuilds from the registry and the terms. -/

namespace DomProtocol.Route

open Settlement (Digest32 ChainId TimelockSpec FinalityPolicy SettlementTerms LegTerms AssetId Blake2b)

open Settlement.Blake2b (blake2b256)

/-- A length prefix and the octets it counts. -/
def lengthPrefixed (octets : Bytes) : Bytes := beBytes 8 octets.length ++ octets

/-- Fail-closed failures of the time authority. -/
inductive RouteTimeError where
  | invalidTerms
  | unsupportedTopology
  | mainnetDisabled
  | registryMismatch
  | invalidPolicy
  | invalidEvidence
  | boundExceeded
  | invalidAuthoritySet
  | invalidSignature
  | thresholdNotMet
  | overflow
  | clockRollback
  | policyExpired
  | evidenceFromFuture
  | evidenceStale
  | anchorStale
  | anchorReorged
  | evidenceRollback
  | deadlinePassed
  | impossibleInterval
  | unsafeWindow
  | storageUnavailable
  | corruptState
  | policyConflict
  | staleCapability
  | frozenCheckpointMismatch
  deriving DecidableEq, Repr

/-! ## The authenticated registry -/

/-- Conservative block-time bounds of a chain. -/
structure ChainTimingBounds where
  minBlockSeconds : UInt32
  maxBlockSeconds : UInt32
  maxReorgSeconds : UInt32
  observationSeconds : UInt32
  broadcastSeconds : UInt32
  deriving DecidableEq

namespace ChainTimingBounds

/-- Whether the block-time bounds are ordered and positive. -/
def validateBounds (bounds : ChainTimingBounds) : Option Unit :=
  if bounds.minBlockSeconds = 0 ∨ bounds.maxBlockSeconds = 0 ∨
      bounds.maxBlockSeconds < bounds.minBlockSeconds then none
  else some ()

end ChainTimingBounds

/-- The smallest margin that covers the reorg, observation and broadcast budgets of two chains. -/
def minimumSafetyMarginSeconds (dom btc : ChainTimingBounds) : Option UInt64 := do
  dom.validateBounds
  btc.validateBounds
  [dom.maxReorgSeconds, dom.observationSeconds, dom.broadcastSeconds,
    btc.maxReorgSeconds, btc.observationSeconds, btc.broadcastSeconds].foldlM
    (fun sum value => checkedAdd sum value.toUInt64) 0

/-- Networks of the DOM chain. -/
inductive DomNetwork where
  | mainnet
  | testnet
  | regtest
  deriving DecidableEq

/-- The authenticated facts of the DOM deployment. -/
structure DomDeployment where
  chainId : ChainId
  genesisHash : Digest32
  network : DomNetwork
  consensusRulesDigest : Digest32
  scriptlessApiVersion : UInt32
  timing : ChainTimingBounds
  finality : FinalityPolicy
  nativeAsset : AssetId

/-- Kind of a counterparty chain. -/
inductive ChainKind where
  | evm (evmChainId : UInt64)
  | bitcoin
  | monero (mainnet : Bool)
  | solana
  deriving DecidableEq

/-- Deployment of a counterparty chain, with its genesis hash. -/
inductive ChainDeployment where
  | evm (genesisHash : Digest32)
  | bitcoin (genesisHash : Digest32)
  | monero (genesisHash : Digest32)
  | solana (genesisHash : Digest32)
  deriving DecidableEq

/-- A counterparty chain of the registry. -/
structure ChainProfile where
  chainId : ChainId
  kind : ChainKind
  timing : ChainTimingBounds
  finality : FinalityPolicy
  profileDigest : Option Digest32
  deployment : ChainDeployment

/-- The registry manifest. -/
structure RegistryManifest where
  networkId : Digest32
  epoch : UInt64
  validFrom : UInt64
  expiresAt : UInt64
  dom : DomDeployment
  chains : List ChainProfile
  assets : List (ChainId × AssetId)

/-- A registry whose signatures were verified. -/
structure ResolvedRegistry where
  manifest : RegistryManifest
  manifestDigest : Digest32

namespace ResolvedRegistry

/-- The profile of a chain. -/
def resolveChain (registry : ResolvedRegistry) (chainId : ChainId) : Option ChainProfile :=
  registry.manifest.chains.find? (·.chainId = chainId)

/-- The registered asset of a chain. -/
def resolveAsset (registry : ResolvedRegistry) (chainId : ChainId) (assetId : AssetId) :
    Option (ChainId × AssetId) :=
  registry.manifest.assets.find? fun asset => asset.1 = chainId ∧ asset.2 = assetId

end ResolvedRegistry

/-! ## Policies -/

/-- Role of a checkpoint in a composed route. -/
inductive CheckpointRole where
  | hub
  | upstreamCounterparty
  | downstreamCounterparty
  deriving DecidableEq

/-- Wire tag of a role. -/
def CheckpointRole.tag : CheckpointRole → UInt8
  | hub => 1
  | upstreamCounterparty => 2
  | downstreamCounterparty => 3

/-- Native clock of a checkpoint. -/
inductive ClockKind where
  | domHeight
  | evmTimestamp
  | bitcoin
  | monero
  | solana
  deriving DecidableEq

/-- Wire tag of a clock. -/
def ClockKind.tag : ClockKind → UInt8
  | domHeight => 1
  | evmTimestamp => 2
  | bitcoin => 3
  | monero => 4
  | solana => 5

/-- One value for each checkpoint of a route. -/
structure Checkpoints (α : Type) where
  hub : α
  upstream : α
  downstream : α
  deriving DecidableEq

/-- The three values in the order of the source's array. -/
def Checkpoints.toList {α : Type} (c : Checkpoints α) : List α := [c.hub, c.upstream, c.downstream]

/-- Authenticated facts a checkpoint must reproduce. -/
structure CheckpointBinding where
  role : CheckpointRole
  clockKind : ClockKind
  chainId : ChainId
  genesisHash : Digest32
  profileDigest : Digest32
  timing : ChainTimingBounds
  finality : FinalityPolicy
  deriving DecidableEq

/-- Signed limits of a policy. -/
structure RouteTimePolicyLimits where
  validFromSeconds : UInt64
  expiresAtSeconds : UInt64
  maxEvidenceAgeSeconds : UInt64
  maxAnchorIntervalWidthSeconds : UInt64
  maxAnchorTimeSkewSeconds : UInt64
  maxFutureSkewSeconds : UInt64
  maxUpstreamFundingAnchorDelaySeconds : UInt64
  maxDownstreamFundingAnchorDelaySeconds : UInt64
  hubMarginSeconds : UInt64
  counterpartyMarginSeconds : UInt64
  deriving DecidableEq

/-- **The static time policy of one route.** -/
structure RouteTimePolicy where
  nativeDomXmr : Bool
  networkId : Digest32
  registryDigest : Digest32
  registryEpoch : UInt64
  upstreamTermsHash : Digest32
  downstreamTermsHash : Digest32
  routeScopeDigest : Digest32
  limits : RouteTimePolicyLimits
  checkpoints : Checkpoints CheckpointBinding
  deriving DecidableEq

/-- Octets of the timing bounds. -/
def putTiming (timing : ChainTimingBounds) : Bytes :=
  [timing.minBlockSeconds, timing.maxBlockSeconds, timing.maxReorgSeconds,
    timing.observationSeconds, timing.broadcastSeconds].flatMap fun value => beBytes 4 value.toNat

/-- Octets of a finality policy. -/
def putFinality (finality : FinalityPolicy) : Bytes :=
  beBytes 4 finality.minConfirmations.toNat ++ beBytes 4 finality.maxReorgDepth.toNat

/-- Octets of the limits. -/
def putLimits (limits : RouteTimePolicyLimits) : Bytes :=
  [limits.validFromSeconds, limits.expiresAtSeconds, limits.maxEvidenceAgeSeconds,
    limits.maxAnchorIntervalWidthSeconds, limits.maxAnchorTimeSkewSeconds,
    limits.maxFutureSkewSeconds, limits.maxUpstreamFundingAnchorDelaySeconds,
    limits.maxDownstreamFundingAnchorDelaySeconds, limits.hubMarginSeconds,
    limits.counterpartyMarginSeconds].flatMap fun value => beBytes 8 value.toNat

/-- Octets of a checkpoint binding. -/
def putBinding (binding : CheckpointBinding) : Bytes :=
  [binding.role.tag, binding.clockKind.tag] ++ beBytes 2 0 ++ binding.chainId.toList ++
    binding.genesisHash.toList ++ binding.profileDigest.toList ++ putTiming binding.timing ++
    putFinality binding.finality

/-- The shortest delay after which a funding anchor can be confirmed. -/
def minimumFundingAnchorDelay (binding : CheckpointBinding) : Except RouteTimeError UInt64 :=
  okOr .overflow (do
    let blocks ← checkedMul binding.timing.maxBlockSeconds.toUInt64
      binding.finality.minConfirmations.toUInt64
    let observed ← checkedAdd blocks binding.timing.observationSeconds.toUInt64
    checkedAdd observed binding.timing.broadcastSeconds.toUInt64)

/-- The static rules of a checkpoint binding. -/
def validateCheckpointBinding (binding : CheckpointBinding) : Except RouteTimeError Unit := do
  rejectIf (binding.chainId = 0 ∨ binding.genesisHash = 0 ∨ binding.profileDigest = 0 ∨
    binding.timing.minBlockSeconds = 0 ∨ binding.timing.maxBlockSeconds = 0 ∨
    binding.timing.maxBlockSeconds < binding.timing.minBlockSeconds ∨
    binding.timing.maxReorgSeconds = 0 ∨ binding.timing.observationSeconds = 0 ∨
    binding.timing.broadcastSeconds = 0 ∨ binding.finality.minConfirmations = 0 ∨
    binding.finality.maxReorgDepth < binding.finality.minConfirmations) .invalidPolicy
  let _ ← okOr .invalidPolicy (minimumSafetyMarginSeconds binding.timing binding.timing)

namespace RouteTimePolicy

/-- The octets of a policy. -/
def encode (policy : RouteTimePolicy) : Bytes :=
  utf8 "DOMRTPV2" ++ beBytes 2 2 ++ beBytes 2 (if policy.nativeDomXmr then 1 else 0) ++
    policy.networkId.toList ++ policy.registryDigest.toList ++
    beBytes 8 policy.registryEpoch.toNat ++ policy.upstreamTermsHash.toList ++
    policy.downstreamTermsHash.toList ++ policy.routeScopeDigest.toList ++
    putLimits policy.limits ++ policy.checkpoints.toList.flatMap putBinding

/-- **The static rules of a policy.** -/
def validateStatic (policy : RouteTimePolicy) : Except RouteTimeError Unit := do
  let limits := policy.limits
  let c := policy.checkpoints
  rejectIf (policy.networkId = 0 ∨ policy.registryDigest = 0 ∨ policy.registryEpoch = 0 ∨
    policy.upstreamTermsHash = 0 ∨ policy.downstreamTermsHash = 0 ∨
    policy.routeScopeDigest = 0 ∨ limits.expiresAtSeconds ≤ limits.validFromSeconds ∨
    limits.maxEvidenceAgeSeconds = 0 ∨ limits.maxAnchorIntervalWidthSeconds = 0 ∨
    limits.maxAnchorTimeSkewSeconds = 0 ∨ limits.maxUpstreamFundingAnchorDelaySeconds = 0 ∨
    limits.maxDownstreamFundingAnchorDelaySeconds = 0 ∨ limits.hubMarginSeconds = 0 ∨
    limits.counterpartyMarginSeconds = 0) .invalidPolicy
  let lifetime ← okOr .overflow (checkedSub limits.expiresAtSeconds limits.validFromSeconds)
  rejectIf (lifetime < limits.maxEvidenceAgeSeconds ∨
    lifetime < limits.maxUpstreamFundingAnchorDelaySeconds ∨
    lifetime < limits.maxDownstreamFundingAnchorDelaySeconds ∨
    c.hub.role ≠ .hub ∨ c.upstream.role ≠ .upstreamCounterparty ∨
    c.downstream.role ≠ .downstreamCounterparty ∨ c.hub.clockKind ≠ .domHeight ∨
    c.hub.chainId = c.upstream.chainId ∨ c.hub.chainId = c.downstream.chainId ∨
    (¬ policy.nativeDomXmr ∧ c.upstream.chainId = c.downstream.chainId)) .invalidPolicy
  rejectIf (policy.nativeDomXmr ∧ (c.upstream.clockKind ≠ .monero ∨
    c.upstream ≠ { c.downstream with role := .upstreamCounterparty })) .invalidPolicy
  forEach validateCheckpointBinding c.toList
  let hubFloor ← okOr .invalidPolicy (minimumSafetyMarginSeconds c.hub.timing c.hub.timing)
  let counterpartyFloor ←
    okOr .invalidPolicy (minimumSafetyMarginSeconds c.upstream.timing c.downstream.timing)
  let upstreamFundingFloor ← minimumFundingAnchorDelay c.upstream
  let downstreamFundingFloor ← minimumFundingAnchorDelay c.downstream
  rejectIf (limits.hubMarginSeconds < hubFloor ∨
    limits.counterpartyMarginSeconds < counterpartyFloor ∨
    limits.maxUpstreamFundingAnchorDelaySeconds < upstreamFundingFloor ∨
    limits.maxDownstreamFundingAnchorDelaySeconds < downstreamFundingFloor) .invalidPolicy

/-- Decoding accepts the octets of a policy that meets the static rules. -/
def decode (policy : RouteTimePolicy) : Except RouteTimeError RouteTimePolicy := do
  policy.validateStatic
  pure policy

/-- The commitment signed by the policy authorities. -/
def policyDigest [Blake2b] (policy : RouteTimePolicy) : Except RouteTimeError Digest32 := do
  policy.validateStatic
  pure (blake2b256 (utf8 "DOM-INTEROP/ROUTE-TIME-POLICY/V2\x00" ++ policy.encode))

end RouteTimePolicy

/-! ## Policies of the registry -/

section Registry

variable [Blake2b]

/-- The digest of both terms of a route, in order. -/
def routeScopeDigest (upstream downstream : SettlementTerms) : Except RouteTimeError Digest32 := do
  let upstreamBytes ← mapError (fun _ => .invalidTerms) upstream.canonicalBytes
  let downstreamBytes ← mapError (fun _ => .invalidTerms) downstream.canonicalBytes
  pure (blake2b256 (utf8 "DOM-INTEROP/ROUTE-TIME-SCOPE/V2\x00" ++
    lengthPrefixed upstreamBytes ++ lengthPrefixed downstreamBytes))

/-- The digest of the DOM deployment profile. -/
def domProfileDigest (manifest : RegistryManifest) : Digest32 :=
  let dom := manifest.dom
  let fields : List Bytes := [dom.chainId.toList, dom.genesisHash.toList,
    dom.consensusRulesDigest.toList, beBytes 4 dom.scriptlessApiVersion.toNat,
    beBytes 4 dom.timing.minBlockSeconds.toNat, beBytes 4 dom.timing.maxBlockSeconds.toNat,
    beBytes 4 dom.timing.maxReorgSeconds.toNat, beBytes 4 dom.timing.observationSeconds.toNat,
    beBytes 4 dom.timing.broadcastSeconds.toNat, beBytes 4 dom.finality.minConfirmations.toNat,
    beBytes 4 dom.finality.maxReorgDepth.toNat, dom.nativeAsset.toList]
  blake2b256 (utf8 "DOM-INTEROPD/DOM-PROFILE/V1\x00" ++ fields.flatMap lengthPrefixed)

/-- The clock and the genesis hash of a counterparty leg. -/
def counterpartyClock (profile : ChainProfile) (leg : LegTerms) :
    Except RouteTimeError (ClockKind × Digest32) :=
  match profile.kind, profile.deployment, leg.deadline, leg.mechanism with
  | .evm evmChainId, deployment, deadline, mechanism =>
    match deployment, deadline, mechanism with
    | .evm genesisHash, .timestampSeconds _, .conditionLock =>
      if evmChainId ≠ 1 then .ok (.evmTimestamp, genesisHash) else .error .mainnetDisabled
    | _, _, _ => if evmChainId = 1 then .error .mainnetDisabled else .error .unsupportedTopology
  | .bitcoin, .bitcoin genesisHash, .blockHeight _, .schnorrAdaptor => .ok (.bitcoin, genesisHash)
  | .bitcoin, .bitcoin genesisHash, .btcTime512s _, .schnorrAdaptor => .ok (.bitcoin, genesisHash)
  | .monero _, .monero genesisHash, .blockHeight _, .crossCurveSharedSpend =>
    .ok (.monero, genesisHash)
  | .solana, .solana genesisHash, .timestampSeconds _, .crossCurveConditionLock =>
    .ok (.solana, genesisHash)
  | _, _, _, _ => .error .unsupportedTopology

/-- The checkpoint binding of a counterparty leg. -/
def counterpartyBinding (registry : ResolvedRegistry) (leg : LegTerms) (role : CheckpointRole) :
    Except RouteTimeError CheckpointBinding := do
  let profile ← okOr .registryMismatch (registry.resolveChain leg.chainId)
  let profileDigest ← okOr .registryMismatch profile.profileDigest
  rejectIf (leg.adapterProfileHash ≠ profileDigest ∨ leg.finality ≠ profile.finality)
    .registryMismatch
  let (clockKind, genesisHash) ← counterpartyClock profile leg
  pure { role, clockKind, chainId := profile.chainId, genesisHash, profileDigest,
         timing := profile.timing, finality := profile.finality }

/-- Whether a deadline is a block height. -/
def isBlockHeight : TimelockSpec → Bool
  | .blockHeight _ => true
  | _ => false

/-- The checkpoint binding of a leg of the DOM/XMR mainnet profile. -/
def nativeCounterpartyBinding (registry : ResolvedRegistry) (leg : LegTerms)
    (role : CheckpointRole) : Except RouteTimeError CheckpointBinding := do
  let profile ← okOr .registryMismatch (registry.resolveChain leg.chainId)
  let _ ← okOr .registryMismatch (registry.resolveAsset leg.chainId leg.assetId)
  match profile.deployment with
  | .monero genesisHash =>
    rejectIf (profile.kind ≠ .monero true ∨ leg.finality ≠ profile.finality ∨
      leg.mechanism ≠ .crossCurveSharedSpend ∨ ¬ isBlockHeight leg.deadline ∨
      leg.adapterProfileHash = 0) .unsupportedTopology
    let profileDigest ← okOr .registryMismatch profile.profileDigest
    pure { role, clockKind := .monero, chainId := profile.chainId, genesisHash, profileDigest,
           timing := profile.timing, finality := profile.finality }
  | _ => .error .unsupportedTopology

/-- What the DOM/XMR mainnet profile requires of the terms. -/
def requireMainnetDomXmrTerms (registry : ResolvedRegistry) (upstream downstream : SettlementTerms) :
    Except RouteTimeError Unit := do
  rejectIf (registry.manifest.dom.network ≠ .mainnet ∨
    upstream.counterpartyLeg.chainId ≠ downstream.counterpartyLeg.chainId) .unsupportedTopology
  forEach (fun leg : LegTerms => do
      let _ ← okOr .registryMismatch (registry.resolveAsset leg.chainId leg.assetId)
      let binding ← nativeCounterpartyBinding registry leg .upstreamCounterparty
      let profile ← okOr .registryMismatch (registry.resolveChain leg.chainId)
      rejectIf (profile.kind ≠ .monero true ∨ binding.clockKind ≠ .monero) .unsupportedTopology)
    [upstream.counterpartyLeg, downstream.counterpartyLeg]

/-- Public mainnet is only served under the DOM/XMR mainnet profile. -/
def requireProfile (registry : ResolvedRegistry) (upstream downstream : SettlementTerms)
    (nativeDomXmr : Bool) : Except RouteTimeError Unit :=
  if nativeDomXmr then requireMainnetDomXmrTerms registry upstream downstream
  else rejectIf (registry.manifest.dom.network = .mainnet) .mainnetDisabled

/-- The topology of the legs of a route. -/
def requireTopology (upstream downstream : SettlementTerms) (nativeDomXmr : Bool) :
    Except RouteTimeError Unit := do
  rejectIf (upstream.domLeg.chainId ≠ downstream.domLeg.chainId ∨
    upstream.domLeg.assetId ≠ downstream.domLeg.assetId ∨
    upstream.domLeg.adapterProfileHash ≠ downstream.domLeg.adapterProfileHash ∨
    upstream.domLeg.mechanism ≠ .domAdaptor2of2 ∨ downstream.domLeg.mechanism ≠ .domAdaptor2of2 ∨
    ¬ isBlockHeight upstream.domLeg.deadline ∨ ¬ isBlockHeight downstream.domLeg.deadline)
    .unsupportedTopology
  rejectIf ((¬ nativeDomXmr ∧
      upstream.counterpartyLeg.chainId = downstream.counterpartyLeg.chainId) ∨
    upstream.counterpartyLeg.chainId = upstream.domLeg.chainId ∨
    downstream.counterpartyLeg.chainId = upstream.domLeg.chainId) .unsupportedTopology

/-- What the registry says of the DOM leg and of the policy's lifetime. -/
def requireRegistry (registry : ResolvedRegistry) (upstream downstream : SettlementTerms)
    (limits : RouteTimePolicyLimits) : Except RouteTimeError Unit := do
  let manifest := registry.manifest
  rejectIf (manifest.networkId = 0 ∨ registry.manifestDigest = 0 ∨ manifest.epoch = 0 ∨
    limits.validFromSeconds < manifest.validFrom ∨ manifest.expiresAt < limits.expiresAtSeconds)
    .registryMismatch
  rejectIf (upstream.domLeg.chainId ≠ manifest.dom.chainId ∨
    upstream.domLeg.assetId ≠ manifest.dom.nativeAsset ∨
    upstream.domLeg.adapterProfileHash ≠ domProfileDigest manifest ∨
    upstream.domLeg.finality ≠ manifest.dom.finality ∨
    downstream.domLeg.finality ≠ manifest.dom.finality) .registryMismatch

namespace RouteTimePolicy

/-- **The policy of a registry and two terms.** -/
def fromRegistryProfile (registry : ResolvedRegistry) (upstream downstream : SettlementTerms)
    (limits : RouteTimePolicyLimits) (nativeDomXmr : Bool) :
    Except RouteTimeError RouteTimePolicy := do
  mapError (fun _ => .invalidTerms) upstream.validate
  mapError (fun _ => .invalidTerms) downstream.validate
  requireTopology upstream downstream nativeDomXmr
  let manifest := registry.manifest
  requireProfile registry upstream downstream nativeDomXmr
  requireRegistry registry upstream downstream limits
  let derive := if nativeDomXmr then nativeCounterpartyBinding else counterpartyBinding
  let upstreamCounterparty ←
    derive registry upstream.counterpartyLeg .upstreamCounterparty
  let downstreamCounterparty ←
    derive registry downstream.counterpartyLeg .downstreamCounterparty
  rejectIf (upstreamCounterparty.clockKind = downstreamCounterparty.clockKind ∧
    upstreamCounterparty.clockKind = .evmTimestamp) .unsupportedTopology
  let upstreamTermsHash ← mapError (fun _ => .invalidTerms) upstream.termsHash
  let downstreamTermsHash ← mapError (fun _ => .invalidTerms) downstream.termsHash
  let scope ← Route.routeScopeDigest upstream downstream
  let policy : RouteTimePolicy := {
    nativeDomXmr
    networkId := manifest.networkId
    registryDigest := registry.manifestDigest
    registryEpoch := manifest.epoch
    upstreamTermsHash, downstreamTermsHash
    routeScopeDigest := scope
    limits
    checkpoints := {
      hub := {
        role := .hub, clockKind := .domHeight
        chainId := manifest.dom.chainId, genesisHash := manifest.dom.genesisHash
        profileDigest := domProfileDigest manifest
        timing := manifest.dom.timing, finality := manifest.dom.finality }
      upstream := upstreamCounterparty
      downstream := downstreamCounterparty } }
  policy.validateStatic
  pure policy

/-- A policy is accepted if it is the one the registry and the terms give. -/
def validateAgainst (policy : RouteTimePolicy) (registry : ResolvedRegistry)
    (upstream downstream : SettlementTerms) : Except RouteTimeError Unit := do
  let expected ←
    fromRegistryProfile registry upstream downstream policy.limits policy.nativeDomXmr
  rejectIf (expected ≠ policy) .registryMismatch

/-- **What an accepted policy commits to**: the registry it was rebuilt from and the scope of the
terms. -/
theorem validateAgainst_pins {policy : RouteTimePolicy} {registry : ResolvedRegistry}
    {upstream downstream : SettlementTerms}
    (accepted : policy.validateAgainst registry upstream downstream = .ok ()) :
    policy.networkId = registry.manifest.networkId ∧
      policy.registryDigest = registry.manifestDigest ∧
      Route.routeScopeDigest upstream downstream = .ok policy.routeScopeDigest ∧
      policy.validateStatic = .ok () := by
  simp only [validateAgainst, fromRegistryProfile, bind_eq_ok, rejectIf_eq_ok, not_not,
    pure_eq_ok] at accepted
  obtain ⟨_, ⟨_, -, _, -, _, -, _, -, _, -, _, -, _, -, _, -, _, -, _, -, scope, hscope, _, hstatic,
    rfl⟩, same⟩ := accepted
  rw [← same]
  exact ⟨rfl, rfl, hscope, hstatic⟩

end RouteTimePolicy

end Registry

/-! ## Evidence -/

/-- A canonical checkpoint and the wall-clock interval of its anchor. -/
structure CanonicalTimeCheckpoint where
  role : CheckpointRole
  clockKind : ClockKind
  chainId : ChainId
  genesisHash : Digest32
  profileDigest : Digest32
  anchorHeight : UInt64
  anchorHash : Digest32
  parentHash : Digest32
  timeLowerSeconds : UInt64
  timeUpperSeconds : UInt64
  canonicalTipHeight : UInt64
  canonicalTipHash : Digest32
  canonicalityEvidenceDigest : Digest32
  deriving DecidableEq

/-- **A revalidation of all checkpoints of a route.** -/
structure RouteTimeEvidence where
  policyDigest : Digest32
  routeScopeDigest : Digest32
  sequence : UInt64
  observedAtSeconds : UInt64
  expiresAtSeconds : UInt64
  checkpoints : Checkpoints CanonicalTimeCheckpoint
  deriving DecidableEq

/-- Octets of a checkpoint. -/
def putCheckpoint (checkpoint : CanonicalTimeCheckpoint) : Bytes :=
  [checkpoint.role.tag, checkpoint.clockKind.tag] ++ beBytes 2 0 ++ checkpoint.chainId.toList ++
    checkpoint.genesisHash.toList ++ checkpoint.profileDigest.toList ++
    beBytes 8 checkpoint.anchorHeight.toNat ++ checkpoint.anchorHash.toList ++
    checkpoint.parentHash.toList ++ beBytes 8 checkpoint.timeLowerSeconds.toNat ++
    beBytes 8 checkpoint.timeUpperSeconds.toNat ++
    beBytes 8 checkpoint.canonicalTipHeight.toNat ++ checkpoint.canonicalTipHash.toList ++
    checkpoint.canonicalityEvidenceDigest.toList

/-- The rules of one checkpoint. -/
def validateCheckpoint (checkpoint : CanonicalTimeCheckpoint) (binding : CheckpointBinding)
    (limits : RouteTimePolicyLimits) (observedAt : UInt64) : Except RouteTimeError Unit := do
  rejectIf (checkpoint.role ≠ binding.role ∨ checkpoint.clockKind ≠ binding.clockKind ∨
    checkpoint.chainId ≠ binding.chainId ∨ checkpoint.genesisHash ≠ binding.genesisHash ∨
    checkpoint.profileDigest ≠ binding.profileDigest) .registryMismatch
  rejectIf (checkpoint.anchorHash = 0 ∨ checkpoint.parentHash = 0 ∨
    checkpoint.canonicalTipHash = 0 ∨ checkpoint.canonicalityEvidenceDigest = 0 ∨
    checkpoint.timeLowerSeconds = 0 ∨
    checkpoint.timeUpperSeconds < checkpoint.timeLowerSeconds) .invalidEvidence
  let width ← okOr .overflow (checkedSub checkpoint.timeUpperSeconds checkpoint.timeLowerSeconds)
  rejectIf (limits.maxAnchorIntervalWidthSeconds < width) .invalidEvidence
  let maximumFuture ← okOr .overflow (checkedAdd observedAt limits.maxFutureSkewSeconds)
  let latestAcceptablePast ←
    okOr .overflow (checkedAdd checkpoint.timeUpperSeconds limits.maxAnchorTimeSkewSeconds)
  rejectIf (maximumFuture < checkpoint.timeLowerSeconds ∨ latestAcceptablePast < observedAt)
    .anchorStale
  rejectIf (binding.finality.minConfirmations = 0) .invalidPolicy
  let requiredTip ← okOr .overflow
    (checkedAdd checkpoint.anchorHeight (binding.finality.minConfirmations - 1).toUInt64)
  rejectIf (checkpoint.canonicalTipHeight < requiredTip ∨
    (checkpoint.canonicalTipHeight = checkpoint.anchorHeight ∧
      checkpoint.canonicalTipHash ≠ checkpoint.anchorHash)) .invalidEvidence

namespace RouteTimeEvidence

/-- The octets of evidence. -/
def encode (evidence : RouteTimeEvidence) : Bytes :=
  utf8 "DOMRTEV2" ++ beBytes 2 2 ++ beBytes 2 0 ++ evidence.policyDigest.toList ++
    evidence.routeScopeDigest.toList ++ beBytes 8 evidence.sequence.toNat ++
    beBytes 8 evidence.observedAtSeconds.toNat ++ beBytes 8 evidence.expiresAtSeconds.toNat ++
    evidence.checkpoints.toList.flatMap putCheckpoint

variable [Blake2b]

/-- The commitment signed by the checkpoint authorities. -/
def evidenceDigest (evidence : RouteTimeEvidence) : Digest32 :=
  blake2b256 (utf8 "DOM-INTEROP/ROUTE-TIME-EVIDENCE/V2\x00" ++ evidence.encode)

/-- The checkpoints of the DOM/XMR mainnet profile agree. -/
def validateNative (evidence : RouteTimeEvidence) (policy : RouteTimePolicy) :
    Except RouteTimeError Unit :=
  rejectIf (policy.nativeDomXmr ∧ evidence.checkpoints.upstream ≠
    { evidence.checkpoints.downstream with role := .upstreamCounterparty }) .invalidEvidence

/-- **Whether evidence is valid under a policy and fresh at a second.** -/
def validateAt (evidence : RouteTimeEvidence) (policy : RouteTimePolicy) (now : UInt64) :
    Except RouteTimeError Unit := do
  policy.validateStatic
  let policyDigest ← policy.policyDigest
  rejectIf (evidence.policyDigest ≠ policyDigest ∨
    evidence.routeScopeDigest ≠ policy.routeScopeDigest ∨ evidence.sequence = 0 ∨
    evidence.observedAtSeconds < policy.limits.validFromSeconds ∨
    policy.limits.expiresAtSeconds < evidence.expiresAtSeconds ∨
    evidence.expiresAtSeconds ≤ evidence.observedAtSeconds) .invalidEvidence
  let signedLifetime ←
    okOr .overflow (checkedSub evidence.expiresAtSeconds evidence.observedAtSeconds)
  rejectIf (policy.limits.maxEvidenceAgeSeconds < signedLifetime) .invalidEvidence
  rejectIf (now < policy.limits.validFromSeconds ∨ policy.limits.expiresAtSeconds ≤ now)
    .policyExpired
  rejectIf (now < evidence.observedAtSeconds) .evidenceFromFuture
  rejectIf (evidence.expiresAtSeconds ≤ now) .evidenceStale
  let age ← okOr .overflow (checkedSub now evidence.observedAtSeconds)
  rejectIf (policy.limits.maxEvidenceAgeSeconds < age) .evidenceStale
  evidence.validateNative policy
  forEach (fun pair : CanonicalTimeCheckpoint × CheckpointBinding =>
      validateCheckpoint pair.1 pair.2 policy.limits evidence.observedAtSeconds)
    (evidence.checkpoints.toList.zip policy.checkpoints.toList)

/-- **Freshness is a window**: evidence that is valid at one second is valid at every later one
before it expires. -/
theorem validateAt_later {evidence : RouteTimeEvidence} {policy : RouteTimePolicy}
    {now later : UInt64} (valid : evidence.validateAt policy now = .ok ()) (after : now ≤ later)
    (before : later < evidence.expiresAtSeconds) : evidence.validateAt policy later = .ok () := by
  simp only [validateAt, bind_eq_ok, rejectIf_eq_ok, okOr_eq_ok, not_or,
    UInt64.le_iff_toNat_le, UInt64.lt_iff_toNat_lt, checkedSub_eq_some] at *
  obtain ⟨u, static, digest, hdigest, _, ⟨d, sc, sq, vf, ex, ob⟩, life, hlife, _, short, _,
    ⟨h1, h2⟩, _, h3, _, h4, age, hage, _, h5, _, native, rest⟩ := valid
  have fits : later.toNat - evidence.observedAtSeconds.toNat < UInt64.size :=
    (Nat.sub_le _ _).trans_lt later.toNat_lt
  refine ⟨u, static, digest, hdigest, (), ⟨d, sc, sq, vf, ex, ob⟩, life, hlife, (), short, (),
    ⟨by omega, by omega⟩, (), by omega, (), by omega,
    UInt64.ofNat (later.toNat - evidence.observedAtSeconds.toNat), ?_, (), ?_, (), native, rest⟩
  all_goals
    rw [UInt64.toNat_ofNat_of_lt' fits]
    omega

end RouteTimeEvidence

/-! ## Ladders -/

/-- Conservative interval of a native deadline, in absolute seconds. -/
structure DeadlineInterval where
  earliestSeconds : UInt64
  latestSeconds : UInt64
  deriving DecidableEq

/-- One proven rung of the ladder. -/
structure LadderIntervalProof where
  upstream : DeadlineInterval
  downstream : DeadlineInterval
  marginSeconds : UInt64
  deriving DecidableEq

/-- Uncertainty of the Solana cluster clock. -/
def solanaClockDriftSeconds : UInt64 := 3600

/-- Block intervals spanned by Bitcoin's median time. -/
def btcMtpSampleIntervals : UInt64 := 10

/-- **The interval of seconds in which a native deadline matures.** -/
def projectDeadline (deadline : TimelockSpec) (binding : CheckpointBinding)
    (checkpoint : CanonicalTimeCheckpoint) (maxFundingAnchorDelaySeconds : UInt64) :
    Except RouteTimeError DeadlineInterval :=
  match binding.clockKind, deadline with
  | .evmTimestamp, .timestampSeconds value => do
    rejectIf (value = 0) .deadlinePassed
    pure ⟨value, value⟩
  | .solana, .timestampSeconds value => do
    rejectIf (value = 0) .deadlinePassed
    let latest ← okOr .overflow (checkedAdd value solanaClockDriftSeconds)
    pure ⟨saturatingSub value solanaClockDriftSeconds, latest⟩
  | .domHeight, .blockHeight value | .bitcoin, .blockHeight value
  | .monero, .blockHeight value => do
    let delta ← okOr .deadlinePassed (checkedSub value checkpoint.anchorHeight)
    let earliestOffset ←
      okOr .overflow (checkedMul delta binding.timing.minBlockSeconds.toUInt64)
    let latestOffset ←
      okOr .overflow (checkedMul delta binding.timing.maxBlockSeconds.toUInt64)
    let earliestSeconds ← okOr .overflow (checkedAdd checkpoint.timeLowerSeconds earliestOffset)
    let latestSeconds ← okOr .overflow (checkedAdd checkpoint.timeUpperSeconds latestOffset)
    pure ⟨earliestSeconds, latestSeconds⟩
  | .bitcoin, .btcTime512s value => do
    rejectIf (value = 0 ∨ 65535 < value ∨ maxFundingAnchorDelaySeconds = 0) .invalidPolicy
    let nominal ← okOr .overflow (checkedMul value 512)
    let medianUncertainty ← okOr .overflow
      (checkedMul btcMtpSampleIntervals binding.timing.maxBlockSeconds.toUInt64)
    let earliestOffset := saturatingSub nominal medianUncertainty
    let latestOffset ← okOr .overflow
      ((checkedAdd nominal 511).bind (checkedAdd · medianUncertainty))
    let earliestSeconds ← okOr .overflow (checkedAdd checkpoint.timeLowerSeconds earliestOffset)
    let latestSeconds ← okOr .overflow
      ((checkedAdd checkpoint.timeUpperSeconds maxFundingAnchorDelaySeconds).bind
        (checkedAdd · latestOffset))
    pure ⟨earliestSeconds, latestSeconds⟩
  | _, _ => .error .unsupportedTopology

/-- A rung: the upstream deadline matures a margin after the downstream one. -/
def proveRung (upstream downstream : DeadlineInterval) (marginSeconds : UInt64) :
    Except RouteTimeError LadderIntervalProof := do
  let protectedDownstream ← okOr .overflow (checkedAdd downstream.latestSeconds marginSeconds)
  rejectIf (upstream.earliestSeconds < protectedDownstream) .unsafeWindow
  pure ⟨upstream, downstream, marginSeconds⟩

/-- The end of the funding horizon of a relative deadline. -/
def horizonEnd (deadline : TimelockSpec) (checkpoint : CanonicalTimeCheckpoint)
    (horizon validUntil : UInt64) : Except RouteTimeError UInt64 :=
  match deadline with
  | .btcTime512s _ => do
    let horizonEnd ← okOr .overflow (checkedAdd checkpoint.timeUpperSeconds horizon)
    pure (min validUntil horizonEnd)
  | _ => pure validUntil

/-- The first second at which evidence or a relative funding horizon is used up. -/
def proofValidUntil (policy : RouteTimePolicy) (evidence : RouteTimeEvidence)
    (upstream downstream : SettlementTerms) : Except RouteTimeError UInt64 := do
  let validUntil ← horizonEnd upstream.counterpartyLeg.deadline evidence.checkpoints.upstream
    policy.limits.maxUpstreamFundingAnchorDelaySeconds
    (min evidence.expiresAtSeconds policy.limits.expiresAtSeconds)
  horizonEnd downstream.counterpartyLeg.deadline evidence.checkpoints.downstream
    policy.limits.maxDownstreamFundingAnchorDelaySeconds validUntil

/-- **A proof of both rungs**, issued by the durable store. -/
structure VerifiedRouteTimeLadder where
  upstreamTermsHash : Digest32
  downstreamTermsHash : Digest32
  routeScopeDigest : Digest32
  policyDigest : Digest32
  evidenceDigest : Digest32
  hub : LadderIntervalProof
  counterparty : LadderIntervalProof
  bindingDigest : Digest32
  evidenceSequence : UInt64
  issuedAtSeconds : UInt64
  validUntilSeconds : UInt64
  storeRevision : UInt64
  storeOpeningEpoch : UInt64
  deriving DecidableEq

/-- **A ladder capability**: a proof revalidated against the live store. -/
structure CurrentRouteTimeLadder where
  proof : VerifiedRouteTimeLadder
  validatedAtSeconds : UInt64
  deriving DecidableEq

/-- **The historical ladder** consumed by a route admission, rebuilt from retained evidence. -/
structure VerifiedFrozenRouteTimeLadder where
  proof : VerifiedRouteTimeLadder
  validatedAtSeconds : UInt64
  deriving DecidableEq

/-- Octets of a rung. -/
def putRung (rung : LadderIntervalProof) : Bytes :=
  [rung.upstream.earliestSeconds, rung.upstream.latestSeconds, rung.downstream.earliestSeconds,
    rung.downstream.latestSeconds, rung.marginSeconds].flatMap fun value => beBytes 8 value.toNat

section Ladder

variable [Blake2b]

/-- The four projected deadlines of a route, none of which may have matured. -/
def projectRoute (policy : RouteTimePolicy) (evidence : RouteTimeEvidence)
    (upstream downstream : SettlementTerms) (now : UInt64) :
    Except RouteTimeError (DeadlineInterval × DeadlineInterval × DeadlineInterval ×
      DeadlineInterval) := do
  let hubUp ←
    projectDeadline upstream.domLeg.deadline policy.checkpoints.hub evidence.checkpoints.hub 0
  let hubDown ←
    projectDeadline downstream.domLeg.deadline policy.checkpoints.hub evidence.checkpoints.hub 0
  let counterpartyUp ← projectDeadline upstream.counterpartyLeg.deadline
    policy.checkpoints.upstream evidence.checkpoints.upstream
    policy.limits.maxUpstreamFundingAnchorDelaySeconds
  let counterpartyDown ← projectDeadline downstream.counterpartyLeg.deadline
    policy.checkpoints.downstream evidence.checkpoints.downstream
    policy.limits.maxDownstreamFundingAnchorDelaySeconds
  forEach (fun interval : DeadlineInterval => do
      rejectIf (interval.latestSeconds < interval.earliestSeconds) .impossibleInterval
      rejectIf (interval.earliestSeconds ≤ now) .deadlinePassed)
    [hubUp, hubDown, counterpartyUp, counterpartyDown]
  pure (hubUp, hubDown, counterpartyUp, counterpartyDown)

/-- **The ladder proof** of a policy and its evidence at a second. -/
def proveLadder (policy : RouteTimePolicy) (evidence : RouteTimeEvidence)
    (upstream downstream : SettlementTerms) (now storeRevision storeOpeningEpoch : UInt64) :
    Except RouteTimeError VerifiedRouteTimeLadder := do
  evidence.validateAt policy now
  let upstreamTermsHash ← mapError (fun _ => .invalidTerms) upstream.termsHash
  let downstreamTermsHash ← mapError (fun _ => .invalidTerms) downstream.termsHash
  let scope ← routeScopeDigest upstream downstream
  rejectIf (upstreamTermsHash ≠ policy.upstreamTermsHash ∨
    downstreamTermsHash ≠ policy.downstreamTermsHash ∨ scope ≠ policy.routeScopeDigest)
    .registryMismatch
  let (hubUp, hubDown, counterpartyUp, counterpartyDown) ←
    projectRoute policy evidence upstream downstream now
  let hub ← proveRung hubUp hubDown policy.limits.hubMarginSeconds
  let counterparty ←
    proveRung counterpartyUp counterpartyDown policy.limits.counterpartyMarginSeconds
  let policyDigest ← policy.policyDigest
  let horizon ← proofValidUntil policy evidence upstream downstream
  let validUntilSeconds := min (min (min (min horizon hubUp.earliestSeconds)
    hubDown.earliestSeconds) counterpartyUp.earliestSeconds) counterpartyDown.earliestSeconds
  rejectIf (validUntilSeconds ≤ now) .anchorStale
  let octets := upstreamTermsHash.toList ++ downstreamTermsHash.toList ++ scope.toList ++
    policyDigest.toList ++ evidence.evidenceDigest.toList ++ putRung hub ++ putRung counterparty ++
    beBytes 8 evidence.sequence.toNat ++ beBytes 8 now.toNat ++ beBytes 8 validUntilSeconds.toNat
  pure {
    upstreamTermsHash, downstreamTermsHash
    routeScopeDigest := scope
    policyDigest
    evidenceDigest := evidence.evidenceDigest
    hub, counterparty
    bindingDigest := blake2b256 (utf8 "DOM-INTEROP/ROUTE-TIME-LADDER/V2\x00" ++ octets)
    evidenceSequence := evidence.sequence
    issuedAtSeconds := now
    validUntilSeconds
    storeRevision, storeOpeningEpoch }

end Ladder

end DomProtocol.Route
