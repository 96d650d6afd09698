import DomProtocol.Types
import DomProtocol.Pow

/-! # Header checks (`dom-consensus::block`)

The checks a header passes on its own or against its ancestors: version and linkage, future limit,
progress over the parent, median time past, proof of work, and the accumulated difficulty.
**`headerBytes`** is the 256-octet string a header is hashed as. -/

namespace DomProtocol

/-- The canonical octets of a header. -/
def headerBytes (header : BlockHeader) : Bytes := WireFormat.encode header

theorem toBytes_header (header : BlockHeader) : toBytes header = .ok (headerBytes header) :=
  toBytes_of_valid trivial

/-- Check that the total kernel offset is a canonical scalar. -/
def validateKernelOffsetCanonical (offset : Octets 32) : Result Unit := do
  rejectIf (offset.toNat > secp256k1N)
    (.malformed "total_kernel_offset >= secp256k1 order n — non-canonical scalar")
  rejectIf (offset.toNat = secp256k1N)
    (.malformed "total_kernel_offset == secp256k1 order n — non-canonical scalar")

/-- Check version, linkage to the previous block and the kernel offset. -/
def validateHeaderSyntax (header : BlockHeader) (networkMagic : UInt32) : Result Unit := do
  let requiredVersion := requiredBlockVersionForNetwork networkMagic header.height
  rejectIf (header.version ≠ requiredVersion) (.invalid
    (s!"invalid block version {header.version} at height {header.height} " ++
      s!"(required {requiredVersion})"))
  rejectIf (header.height = 0 ∧ header.prevHash ≠ Hash256.zero)
    (.invalid "genesis block must have zero prev_hash")
  rejectIf (header.height ≠ 0 ∧ header.prevHash = Hash256.zero)
    (.invalid "non-genesis block must have non-zero prev_hash")
  validateKernelOffsetCanonical header.totalKernelOffset

/-- Check that the timestamp is not beyond `now` plus the limit. -/
def validateFutureTimestampWithLimit (header : BlockHeader) (now : Timestamp) (limit : UInt64) :
    Result Unit := do
  let latest ← okOr (.internal "timestamp limit overflow") (checkedAdd now limit)
  rejectIf (header.timestamp > latest) (.temporarilyInvalid
    s!"block timestamp {header.timestamp} too far in future (limit {latest})")

/-- Check that the timestamp is greater than that of the parent. -/
def validateParentTimestampProgression (header parent : BlockHeader) : Result Unit :=
  rejectIf (header.timestamp ≤ parent.timestamp) (.invalid
    (s!"block timestamp {header.timestamp} not greater than parent timestamp " ++
      s!"{parent.timestamp}"))

/-- The median of the first eleven timestamps. -/
def medianTimePast (ancestorTimestamps : List Timestamp) : Timestamp :=
  ((ancestorTimestamps.take medianTimeWindow).insertionSort (· ≤ ·)).getD (medianTimeWindow / 2) 0

/-- Check that the timestamp is greater than the median of its ancestors', if there are enough. -/
def validateMedianTimePast (header : BlockHeader) (ancestorTimestamps : List Timestamp) :
    Result Unit :=
  if ancestorTimestamps.length < medianTimeWindow then .ok ()
  else rejectIf (header.timestamp ≤ medianTimePast ancestorTimestamps) (.invalid
    (s!"block timestamp {header.timestamp} not greater than median-time-past " ++
      s!"{medianTimePast ancestorTimestamps}"))

/-- The expanded target of a header. -/
def BlockHeader.expandTarget (header : BlockHeader) : Result Target :=
  mapError (fun e => .invalid s!"invalid target: {e.display}") (toTarget header.target)

/-- Check the proof of work of a header under a seed. -/
def validatePowForNetwork [Primitives] (networkMagic : UInt32) (header : BlockHeader)
    (seed : Hash256) : Result Unit := do
  let target ← mapError (fun e => .invalid s!"invalid compact target: {e.display}")
    (toTarget header.target)
  let valid ← validatePowHashForNetwork networkMagic header.powPreimage header.pow.randomxHash
    seed target
  rejectIf (valid = false) (.peerMisbehavior .InvalidPow
    "proof-of-work invalid: hash mismatch or does not meet target")

/-- Add the work of one block to that of its parent. -/
def checkedAccumulatedDifficulty (parentTotal : U256) (blockDifficulty : Nat) : Result U256 :=
  if parentTotal.toNat + blockDifficulty < 2 ^ 256 then
    .ok (BitVec.ofNat _ (parentTotal.toNat + blockDifficulty))
  else .error (.invalid "total_difficulty overflow")

/-- Check the accumulated difficulty of a header over that of its parent. -/
def validateTotalDifficulty (networkMagic : UInt32) (header : BlockHeader)
    (parentDifficulty : U256) : Result Unit := do
  let target ← header.expandTarget
  let blockDiff ← targetToDifficultyForNetworkHeight networkMagic header.height target
  let expectedTotal ← checkedAccumulatedDifficulty parentDifficulty blockDiff
  rejectIf (header.totalDifficulty ≠ expectedTotal) (.invalid
    (s!"total_difficulty mismatch: expected {expectedTotal.toNat}, " ++
      s!"got {header.totalDifficulty.toNat}"))

/-- The part of the syntax check that links a header to its chain. -/
theorem prevHash_of_validateHeaderSyntax {header : BlockHeader} {networkMagic : UInt32}
    (valid : validateHeaderSyntax header networkMagic = .ok ()) :
    header.height = 0 ↔ header.prevHash = Hash256.zero := by
  simp only [validateHeaderSyntax, bind_eq_ok, rejectIf_eq_ok, not_and, not_not] at valid
  obtain ⟨-, -, -, hgenesis, -, hother, -⟩ := valid
  exact ⟨hgenesis, fun hprev => by_contra fun hheight => hother hheight hprev⟩

end DomProtocol
