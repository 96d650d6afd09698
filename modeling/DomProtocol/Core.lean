import DomProtocol.Lib.Octets
import DomProtocol.Lib.Checked

/-! # Core types, errors and consensus constants (`dom-core`)

The vocabulary every other module is written in: the error taxonomy **`DomError`**, hashes, heights,
timestamps and amounts, the consensus constants, and the reward schedule with **`blockReward`** and
the supply ceiling **`maxSupplyNoms`** computed from it.

`Amount` carries the supply ceiling as a field, so an amount above it cannot be built; everything
that constructs one goes through `Amount.fromNoms`. -/

namespace DomProtocol

/-! ## Errors -/

/-- Structured peer-misbehavior reasons used for ban scoring. -/
inductive PeerMisbehavior where
  | AddressFlooding
  | HandshakeTimeout
  | HelloTimeout
  | WriteTimeout
  | MessageRateLimit
  | WrongChainId
  | UnexpectedHello
  | InvalidPow
  | InvalidSignature
  deriving DecidableEq, Repr

/-- Top-level protocol error; the class determines ban scoring and retry behavior. -/
inductive DomError where
  | malformed (message : String)
  | invalid (message : String)
  | temporarilyInvalid (message : String)
  | orphan (message : String)
  | policyRejected (message : String)
  | peerMisbehavior (kind : PeerMisbehavior) (message : String)
  | internal (message : String)
  deriving DecidableEq, Repr

/-- Result of a fallible protocol function. -/
abbrev Result (α : Type) := Except DomError α

/-- The `Debug` name of a misbehavior reason. -/
def PeerMisbehavior.debug : PeerMisbehavior → String
  | AddressFlooding => "AddressFlooding"
  | HandshakeTimeout => "HandshakeTimeout"
  | HelloTimeout => "HelloTimeout"
  | WriteTimeout => "WriteTimeout"
  | MessageRateLimit => "MessageRateLimit"
  | WrongChainId => "WrongChainId"
  | UnexpectedHello => "UnexpectedHello"
  | InvalidPow => "InvalidPow"
  | InvalidSignature => "InvalidSignature"

/-- The `Display` text of an error, as it is embedded in the messages of callers. -/
def DomError.display : DomError → String
  | malformed message => s!"Malformed: {message}"
  | invalid message => s!"Invalid: {message}"
  | temporarilyInvalid message => s!"TemporarilyInvalid: {message}"
  | orphan message => s!"Orphan: unknown parent {message}"
  | policyRejected message => s!"PolicyRejected: {message}"
  | peerMisbehavior kind message => s!"PeerMisbehavior({kind.debug}): {message}"
  | internal message => s!"Internal: {message}"

/-! ## Hexadecimal text -/

/-- One lowercase hexadecimal digit. -/
def hexDigit (value : Nat) : Char :=
  if value < 10 then Char.ofNat (48 + value) else Char.ofNat (87 + value)

/-- A number as `width` lowercase hexadecimal digits, most significant first. -/
def hexNat (width value : Nat) : String :=
  String.ofList ((List.range width).reverse.map fun i => hexDigit (value / 16 ^ i % 16))

/-! ## Hashes, heights, timestamps -/

/-- A 32-byte Blake2b-256 hash. -/
abbrev Hash256 := Octets 32

/-- The all-zero hash, the `prev_hash` sentinel of genesis. -/
def Hash256.zero : Hash256 := 0

/-- Lowercase hexadecimal text of a hash. -/
def Hash256.toHex (hash : Hash256) : String := hexNat 64 hash.toNat

/-- A 256-bit unsigned integer (accumulated difficulty), stored as 32 octets. -/
abbrev U256 := Octets 32

/-- Block height (genesis = 0). -/
abbrev BlockHeight := UInt64

/-- Unix timestamp in seconds. -/
abbrev Timestamp := UInt64

/-! ## Consensus constants -/

def targetSpacing : Nat := 120
def asertHalfLifeBlocks : Nat := 288
def asertHalfLife : Nat := targetSpacing * asertHalfLifeBlocks
def genesisTargetCompact : UInt32 := 0x1e00ffff
def genesisTimestampTestnet : UInt64 := 1778642633
def genesisTimestampMainnet : UInt64 := 1784071429
def genesisTimestampRegtest : UInt64 := genesisTimestampMainnet
def coinbaseMaturity : UInt64 := 1000
def regtestCoinbaseMaturity : UInt64 := 1
def maxBlockWeight : Nat := 40000
def maxTxWeight : Nat := 4000
def maxInputsPerTx : Nat := 255
def maxOutputsPerTx : Nat := 255
def maxKernelsPerTx : Nat := 16
def maxBlockTxs : Nat := 5000
def recoveryCapsuleSize : Nat := 96
def maxOutputProofEnvelopeSize : Nat := 739 + recoveryCapsuleSize
def maxFutureBlockTime : UInt64 := 120
def testnetMaxFutureBlockTime : UInt64 := 30
def medianTimeWindow : Nat := 11
def blockVersionLegacy : UInt32 := 2
def blockVersionV3 : UInt32 := 3
def mainnetV3ActivationHeight : UInt64 := 12500
def testnetV3ActivationHeight : UInt64 := 1
def regtestV3ActivationHeight : UInt64 := 1
def networkMagicMainnet : UInt32 := 0x444F4D31
def networkMagicTestnet : UInt32 := 0x444F4D54
def networkMagicRegtest : UInt32 := 0x444F4D52
def kernelFeatPlain : UInt8 := 0x00
def kernelFeatCoinbase : UInt8 := 0x01
def kernelFeatHeightLocked : UInt8 := 0x02
def weightInput : Nat := 1
def weightOutput : Nat := 21
def weightKernel : Nat := 3
def weightCoinbaseKernel : Nat := 2

def maxReorgDepthPolicy : Nat := 1000

/-- Maximum PoW target (easiest difficulty), big-endian. -/
def maxTargetBytes : Octets 32 := BitVec.ofNat _ (2 ^ 240 - 1)

/-- Minimum PoW target (hardest difficulty), big-endian: octets 26 and 27 are `0xff`. -/
def minTargetBytes : Octets 32 := BitVec.ofNat _ (0xffff * 2 ^ 32)

/-- The block version required by a network at `height`. -/
def requiredBlockVersionForNetwork (networkMagic : UInt32) (height : UInt64) : UInt32 :=
  let activationHeight :=
    if networkMagic = networkMagicTestnet then testnetV3ActivationHeight
    else if networkMagic = networkMagicRegtest then regtestV3ActivationHeight
    else mainnetV3ActivationHeight
  if height ≥ activationHeight then blockVersionV3 else blockVersionLegacy

theorem requiredBlockVersionForNetwork_cases (networkMagic : UInt32) (height : UInt64) :
    requiredBlockVersionForNetwork networkMagic height = blockVersionV3 ∨
      requiredBlockVersionForNetwork networkMagic height = blockVersionLegacy :=
  ite_eq_or_eq _ _ _

/-- Genesis timestamp configured for a network. -/
def genesisTimestampForNetworkMagic (networkMagic : UInt32) : Result UInt64 :=
  if networkMagic = networkMagicMainnet then .ok genesisTimestampMainnet
  else if networkMagic = networkMagicTestnet then .ok genesisTimestampTestnet
  else if networkMagic = networkMagicRegtest then .ok genesisTimestampRegtest
  else .error (.invalid
    s!"unknown network magic 0x{hexNat 8 networkMagic.toNat} for genesis timestamp")

/-! Domain-separation tags of the tagged hash. -/

def tagKernelSig : String := "DOM:kernel-sig:v1"
def tagKernelMsg : String := "DOM:kernel-msg:v1"
def tagKernelMsgCoinbase : String := "DOM:kernel-msg:coinbase:v1"
def tagChainId : String := "DOM:chain-id:v1"
def tagBlockBodyCommitment : String := "DOM:block-body-commitment:v1"
def tagBoundRangeproofRoot : String := "DOM:bound-rangeproof-root:v1"
def tagGenesisInscription : String := "DOM:genesis-inscription:v1"
def tagMainnetGenesisIdentity : String := "DOM:mainnet-genesis-identity:v1"
def tagGenesisBlinding : String := "DOM:genesis-blinding:v1"
def tagPmmrEmpty : String := "DOM:pmmr-empty:v1"
def tagPmmrBag : String := "DOM:pmmr-bag:v1"
def tagPmmrLeaf : String := "DOM:pmmr-leaf:v1"
def tagPmmrNode : String := "DOM:pmmr-node:v1"

/-! ## Reward schedule -/

/-- Blocks between two reductions of the block reward. -/
def halvingInterval : Nat := 330000

/-- Block reward per halving epoch, in noms. -/
def blockRewardTable : List UInt64 :=
  [3300000000, 2211000000, 1481370000, 992517900, 664986993, 445541285, 298512660, 200003482,
    134002332, 89781562, 60153646, 40302942, 27002971, 18091990, 12121633, 8121494, 5441400,
    3645738, 2442644, 1636571, 1096502, 734656, 492219, 329786, 220956, 148040, 99186, 66454,
    44524, 29831, 19986, 13390, 8971, 6010, 4026, 2697, 1806, 1210, 810, 542, 363, 243, 162, 108,
    72, 48, 32, 21, 14, 9, 6, 4, 2, 1, 0]

/-- Issuance of a schedule of per-epoch rewards: the first epoch has one block fewer, because
mainnet genesis is economically empty. -/
def maximumSupplyFromSchedule : Nat :=
  (blockRewardTable.zipIdx.map fun entry =>
    entry.1.toNat * (if entry.2 = 0 then halvingInterval - 1 else halvingInterval)).sum

/-- Maximum theoretical mainnet issuance in noms. -/
def maxSupplyNoms : Nat := maximumSupplyFromSchedule

/-- The value the compiler computes for the supply ceiling. -/
theorem maxSupplyNoms_eq : maxSupplyNoms = 3299996676900000 := by decide +kernel

/-- **An amount in noms**, never above the supply ceiling. -/
@[ext] structure Amount where
  noms : UInt64
  valid : noms.toNat ≤ maxSupplyNoms
  deriving DecidableEq

namespace Amount

/-- Zero amount. -/
def zero : Amount := ⟨0, Nat.zero_le _⟩

/-- Construct from noms. -/
def fromNoms (noms : UInt64) : Result Amount :=
  if valid : noms.toNat ≤ maxSupplyNoms then .ok ⟨noms, valid⟩
  else .error (.invalid s!"amount {noms} exceeds MAX_SUPPLY_NOMS")

theorem fromNoms_eq_ok {noms : UInt64} {amount : Amount} :
    fromNoms noms = .ok amount ↔ amount.noms = noms := by
  unfold fromNoms
  split
  · obtain ⟨raw, hraw⟩ := amount
    rw [Except.ok.injEq, Amount.mk.injEq]
    exact eq_comm
  · rename_i h
    constructor
    · intro hcontra
      cases hcontra
    · rintro rfl
      exact absurd amount.valid h

end Amount

/-- Every entry of the reward table is an amount. -/
theorem blockRewardTable_le {reward : UInt64} (mem : reward ∈ blockRewardTable) :
    reward.toNat ≤ maxSupplyNoms := by
  have hall : blockRewardTable.all (fun reward => reward.toNat ≤ 3300000000) = true := by decide
  have := of_decide_eq_true (List.all_eq_true.mp hall reward mem)
  rw [maxSupplyNoms_eq]
  omega

/-- Halving epoch of a height. -/
def halvingEpoch (height : BlockHeight) : Nat := height.toNat / halvingInterval

/-- Block subsidy at a height, from the precomputed table; zero after the last epoch. -/
def blockReward (height : BlockHeight) : Amount :=
  match entry : blockRewardTable[halvingEpoch height]? with
  | some reward => ⟨reward, blockRewardTable_le (List.mem_of_getElem? entry)⟩
  | none => Amount.zero

end DomProtocol
