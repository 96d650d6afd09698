import DomProtocol.Crypto

/-! # Proof of work and difficulty (`dom-pow`)

Targets are 256-bit numbers, stored in headers in a compact form of one exponent octet and a 23-bit
mantissa. The target of a block is fixed by its height and timestamp through **`ASERT`**: the
anchor's target is scaled by `2 ^ (e / halfLife)`, where `e` is how many seconds the block is late,
then rounded to a compact form. **`computeExpectedTarget`** is that value, and
**`targetToDifficultyForNetworkHeight`** the work a block of a given target adds.

Signed 128-bit arithmetic of the source is on integers, with the overflow checks it makes. -/

namespace DomProtocol

/-! ## Parameters -/

def randomxSeedInterval : Nat := 2048
def randomxSeedOffset : Nat := 64

/-- `floor (2 ^ (i / 256) * 65536)` for the 256 fractional parts `i`. -/
def asertFracTable : List Nat :=
  [65536, 65713, 65891, 66070, 66249, 66429, 66609, 66789, 66971, 67152, 67334, 67517, 67700,
    67883, 68067, 68252, 68437, 68623, 68809, 68995, 69182, 69370, 69558, 69747, 69936, 70125,
    70315, 70506, 70697, 70889, 71081, 71274, 71467, 71661, 71855, 72050, 72245, 72441, 72638,
    72834, 73032, 73230, 73429, 73628, 73827, 74027, 74228, 74429, 74631, 74833, 75036, 75240,
    75444, 75648, 75853, 76059, 76265, 76472, 76679, 76887, 77096, 77305, 77514, 77725, 77935,
    78147, 78359, 78571, 78784, 78998, 79212, 79427, 79642, 79858, 80074, 80292, 80509, 80727,
    80946, 81166, 81386, 81607, 81828, 82050, 82272, 82495, 82719, 82943, 83168, 83394, 83620,
    83846, 84074, 84302, 84530, 84759, 84989, 85220, 85451, 85682, 85915, 86148, 86381, 86615,
    86850, 87086, 87322, 87559, 87796, 88034, 88273, 88512, 88752, 88993, 89234, 89476, 89718,
    89962, 90206, 90450, 90695, 90941, 91188, 91435, 91683, 91932, 92181, 92431, 92681, 92933,
    93185, 93437, 93691, 93945, 94199, 94455, 94711, 94968, 95225, 95483, 95742, 96002, 96262,
    96523, 96785, 97047, 97310, 97574, 97839, 98104, 98370, 98637, 98904, 99172, 99441, 99711,
    99981, 100252, 100524, 100797, 101070, 101344, 101619, 101894, 102170, 102447, 102725, 103004,
    103283, 103563, 103844, 104125, 104408, 104691, 104975, 105259, 105545, 105831, 106118, 106405,
    106694, 106983, 107273, 107564, 107856, 108148, 108441, 108735, 109030, 109326, 109622, 109919,
    110217, 110516, 110816, 111116, 111418, 111720, 112023, 112326, 112631, 112936, 113243, 113550,
    113857, 114166, 114476, 114786, 115097, 115409, 115722, 116036, 116351, 116666, 116982, 117300,
    117618, 117936, 118256, 118577, 118898, 119221, 119544, 119868, 120193, 120519, 120846, 121173,
    121502, 121831, 122162, 122493, 122825, 123158, 123492, 123827, 124162, 124499, 124837, 125175,
    125514, 125855, 126196, 126538, 126881, 127225, 127570, 127916, 128263, 128611, 128959, 129309,
    129660, 130011, 130364, 130717]

def maxCompactTarget : UInt32 := 0x1e7fffff
def testnetTargetCompact : UInt32 := 0x1e2eff7f
def regtestTargetCompact : UInt32 := maxCompactTarget
def mainnetAsertRescueHeight : UInt64 := 4849
def mainnetAsertRescueAnchorHeight : UInt64 := 4848
def mainnetAsertRescueAnchorTimestamp : UInt64 := 1784653190
def mainnetAsertRescueMaxCompactTarget : UInt32 := 0x1f00ffff
def mainnetAsertRescueHalfLife : Nat := targetSpacing * 10

/-- A 256-bit target, big-endian. -/
abbrev Target := Octets 32

/-! ## Compact targets -/

/-- Expand compact bits: the low mantissa octet is the most significant one. -/
def compactToTargetUnchecked (bits : UInt32) : Target :=
  let exponent := bits.toNat / 2 ^ 24
  let mantissa := bits.toNat % 2 ^ 23
  let octet (i : Nat) : Nat :=
    if i ≤ exponent ∧ exponent - i < 32 then mantissa / 256 ^ (i - 1) % 256 * 256 ^ (exponent - i)
    else 0
  BitVec.ofNat _ (octet 1 + octet 2 + octet 3)

/-- The greatest target the compact decoder accepts. -/
def maximumAcceptedTarget : Target := BitVec.ofNat _ (2 ^ 248 - 1)

/-- Check that a target lies in the accepted range. -/
def validateTargetBounds (target : Target) : Result Unit := do
  rejectIf (target.toNat > maximumAcceptedTarget.toNat) (.invalid "target > MAX_TARGET")
  rejectIf (target.toNat < minTargetBytes.toNat) (.invalid "target < MIN_TARGET")

/-- Expand a compact target. -/
def toTarget (bits : UInt32) : Result Target :=
  if bits.toNat % 2 ^ 23 = 0 then .ok 0
  else if bits.toNat / 2 ^ 23 % 2 = 1 then .error (.invalid "negative compact target")
  else if bits.toNat / 2 ^ 24 > 32 then
    .error (.invalid s!"compact exponent {bits.toNat / 2 ^ 24} > 32")
  else do
    validateTargetBounds (compactToTargetUnchecked bits)
    pure (compactToTargetUnchecked bits)

/-- Drop zero low octets of a mantissa, lowering the size with them. -/
def trimMantissa : (fuel size mantissa : Nat) → Nat × Nat
  | 0, size, mantissa => (size, mantissa)
  | fuel + 1, size, mantissa =>
    if size > 1 ∧ mantissa % 256 = 0 then trimMantissa fuel (size - 1) (mantissa / 256)
    else (size, mantissa)

/-- The three octets from `start`, the first one lowest. -/
def mantissaAt (octets : Bytes) (start : Nat) : Nat := leNat ((octets.drop start).take 3)

/-- One candidate of the legacy compact encoder: the octets from `start`. -/
def compactCandidate (target : Target) (start : Nat) : Option (UInt32 × Target) :=
  let mantissa := mantissaAt target.toList start
  if mantissa = 0 ∨ mantissa / 2 ^ 23 % 2 = 1 then none
  else
    let trimmed := trimMantissa 32 (32 - start) mantissa
    let compact := UInt32.ofNat (trimmed.1 * 2 ^ 24 + trimmed.2)
    match toTarget compact with
    | .error _ => none
    | .ok expanded => if expanded.toNat > target.toNat then none else some (compact, expanded)

/-- The better of two candidates: the greater target, then the smaller encoding. -/
def betterCompact (best : Option (UInt32 × Target)) (candidate : Option (UInt32 × Target)) :
    Option (UInt32 × Target) :=
  match best, candidate with
  | best, none => best
  | none, some candidate => some candidate
  | some best, some candidate =>
    if candidate.2.toNat > best.2.toNat ∨ (candidate.2 = best.2 ∧ candidate.1 < best.1) then
      some candidate
    else some best

/-- The start positions from the first nonzero octet on. -/
def bestCompact (target : Target) : Option (UInt32 × Target) :=
  ((List.range 32).drop (target.toList.findIdx (· ≠ 0))).foldl
    (fun best start => betterCompact best (compactCandidate target start)) none

/-- The compact form of the hardest target, the fallback of both encoders. -/
def minTargetCompact : UInt32 := ((bestCompact minTargetBytes).map Prod.fst).getD 0

/-- The hardest target has a compact form, so the recursive fallback of the source ends. -/
example : (bestCompact minTargetBytes).isSome = true := by decide +kernel

/-- Convert a target to compact form. -/
def targetToCompact (target : Target) : UInt32 :=
  if target = 0 then 0 else ((bestCompact target).map Prod.fst).getD minTargetCompact

/-- One candidate of the rescue encoder: the octets from `start`, sign bit cleared. -/
def rescueCandidate (target : Target) (start : Nat) : Option (UInt32 × Target) :=
  let mantissa := mantissaAt target.toList start % 2 ^ 23
  if mantissa = 0 then none
  else
    let compact := UInt32.ofNat ((32 - start) * 2 ^ 24 + mantissa)
    match toTarget compact with
    | .error _ => none
    | .ok expanded => if expanded.toNat > target.toNat then none else some (compact, expanded)

/-- Keep the first candidate of greatest target. -/
def greaterCompact (best candidate : Option (UInt32 × Target)) : Option (UInt32 × Target) :=
  match best, candidate with
  | best, none => best
  | none, some candidate => some candidate
  | some best, some candidate =>
    if candidate.2.toNat > best.2.toNat then some candidate else some best

/-- Convert a target to the compact form used from the mainnet rescue height on. -/
def targetToRescueCompact (target : Target) : UInt32 :=
  if target = 0 then 0
  else
    let best := (List.range (target.toList.findIdx (· ≠ 0) + 1)).foldl
      (fun best start => greaterCompact best (rescueCandidate target start)) none
    (best.map Prod.fst).getD minTargetCompact

/-- Round a target through the compact form. -/
def canonicalizeCompactTarget (target : Target) : Result Target := toTarget (targetToCompact target)

/-- Round a target through the compact form of the rescue heights. -/
def canonicalizeRescueCompactTarget (target : Target) : Result Target :=
  toTarget (targetToRescueCompact target)

/-! ## Network parameters -/

/-- Proof-of-work parameters of a network. -/
structure PowParams where
  targetSpacing : Nat
  halfLife : Nat
  genesisTargetCompact : UInt32
  maxCompactTarget : UInt32

/-- Parameters of a recognized network. -/
def powParamsForNetwork (networkMagic : UInt32) : Result PowParams :=
  if networkMagic = networkMagicTestnet then
    .ok ⟨targetSpacing, asertHalfLife, testnetTargetCompact, maxCompactTarget⟩
  else if networkMagic = networkMagicRegtest then
    .ok ⟨targetSpacing, asertHalfLife, regtestTargetCompact, regtestTargetCompact⟩
  else if networkMagic = networkMagicMainnet then
    .ok ⟨targetSpacing, asertHalfLife, genesisTargetCompact, genesisTargetCompact⟩
  else .error (.invalid
    s!"unknown network magic 0x{hexNat 8 networkMagic.toNat} for PoW parameters")

/-- Whether the mainnet rescue rules govern a height. -/
def isRescueHeight (networkMagic : UInt32) (height : BlockHeight) : Bool :=
  networkMagic = networkMagicMainnet ∧ height ≥ mainnetAsertRescueHeight

/-- Parameters of a network at a height. -/
def powParamsForNetworkAtHeight (networkMagic : UInt32) (height : BlockHeight) :
    Result PowParams := do
  let params ← powParamsForNetwork networkMagic
  pure (if isRescueHeight networkMagic height then
    { params with
      halfLife := mainnetAsertRescueHalfLife
      maxCompactTarget := mainnetAsertRescueMaxCompactTarget }
  else params)

/-- Whether a network uses a fixed development target. -/
def usesDevFixedTarget (networkMagic : UInt32) : Bool := networkMagic = networkMagicRegtest

/-! ## ASERT -/

/-- The static anchor of ASERT. -/
structure AsertAnchor where
  timestamp : Timestamp
  height : BlockHeight
  target : Target

/-- The anchor at genesis. -/
def genesisAnchor (networkMagic : UInt32) : Result AsertAnchor := do
  let params ← powParamsForNetwork networkMagic
  let timestamp ← genesisTimestampForNetworkMagic networkMagic
  let target ← toTarget params.genesisTargetCompact
  pure ⟨timestamp, 0, target⟩

/-- The anchor that governs a height. -/
def asertAnchorForNetworkHeight (networkMagic : UInt32) (height : BlockHeight) :
    Result AsertAnchor :=
  if isRescueHeight networkMagic height then do
    let target ← toTarget genesisTargetCompact
    pure ⟨mainnetAsertRescueAnchorTimestamp, mainnetAsertRescueAnchorHeight, target⟩
  else genesisAnchor networkMagic

/-- A signed 128-bit result, if it fits. -/
def checkedI128 (value : Int) : Option Int :=
  if -2 ^ 127 ≤ value ∧ value < 2 ^ 127 then some value else none

/-- Floor division, rounding toward negative infinity. -/
def floorDivI128 (a b : Int) : Result Int := do
  rejectIf (b = 0) (.invalid "floor_div by zero")
  let d ← okOr (.invalid "floor_div overflow") (checkedI128 (a.tdiv b))
  let r := a.tmod b
  if r ≠ 0 ∧ (decide (a < 0)) ≠ (decide (b < 0)) then
    okOr (.invalid "floor_div adj overflow") (checkedI128 (d - 1))
  else pure d

/-- Seconds a block is behind the ideal schedule of the anchor. -/
def asertExponentSeconds (anchor : AsertAnchor) (blockTimestamp : Timestamp)
    (blockHeight : BlockHeight) (targetSpacing : Nat) : Result Int := do
  let heightDiff ← okOr (.invalid "height before anchor")
    (checkedSub blockHeight anchor.height)
  let timeDiff : Int := blockTimestamp.toNat - anchor.timestamp.toNat
  let idealTime ← okOr (.invalid "ideal_time overflow")
    (checkedI128 ((heightDiff.toNat : Int) * targetSpacing))
  okOr (.invalid "exponent overflow") (checkedI128 (timeDiff - idealTime))

/-- `floor (value * multiplier / 65536)` on 128-bit halves, with the carry into the high half. -/
def mul256DivRadix (hi lo multiplier : Nat) : Nat × Nat :=
  let loProd := lo * multiplier
  let hiProd := hi * multiplier
  let newLo := loProd / 2 ^ 16 + hiProd % 2 ^ 16 * 2 ^ 112
  let newHi := hiProd / 2 ^ 16 + newLo / 2 ^ 128
  (newHi % 2 ^ 128, newLo % 2 ^ 128)

/-- Shift left, saturating at the greatest 256-bit number. -/
def shiftLeft256 (value shift : Nat) : Nat :=
  if value * 2 ^ shift < 2 ^ 256 then value * 2 ^ shift else 2 ^ 256 - 1

/-- Scale the anchor target and clamp it to the accepted range. -/
def applyExponent (anchorTarget : Target) (integerPart : Int) (fracMultiplier : Nat)
    (maxTarget : Target) : Target :=
  let halves := mul256DivRadix (anchorTarget.toNat / 2 ^ 128) (anchorTarget.toNat % 2 ^ 128)
    fracMultiplier
  let scaled := halves.1 * 2 ^ 128 + halves.2
  let result :=
    if 0 ≤ integerPart then shiftLeft256 scaled (min integerPart 255).toNat
    else scaled / 2 ^ (min (-integerPart) 255).toNat
  if result > maxTarget.toNat then maxTarget
  else if result < minTargetBytes.toNat then minTargetBytes
  else BitVec.ofNat _ result

/-- The next target with explicit parameters. -/
def asertNextTargetWithParams (anchor : AsertAnchor) (blockTimestamp : Timestamp)
    (blockHeight : BlockHeight) (params : PowParams) : Result Target := do
  let exponentSeconds ← asertExponentSeconds anchor blockTimestamp blockHeight params.targetSpacing
  let num ← okOr (.invalid "exponent_fp overflow") (checkedI128 (exponentSeconds * 256))
  let exponentFp ← floorDivI128 num params.halfLife
  let integerPart ← floorDivI128 exponentFp 256
  let whole ← okOr (.invalid "frac overflow") (checkedI128 (integerPart * 256))
  let frac ← okOr (.invalid "frac underflow") (checkedI128 (exponentFp - whole))
  let fracIndex := min frac.toNat 255
  let maxTarget ← toTarget params.maxCompactTarget
  pure (applyExponent anchor.target integerPart (asertFracTable.getD fracIndex 0) maxTarget)

/-- The target before rounding to a compact form. -/
def rawExpectedTarget (networkMagic : UInt32) (params : PowParams) (blockTimestamp : Timestamp)
    (blockHeight : BlockHeight) : Result Target := do
  let anchor ← asertAnchorForNetworkHeight networkMagic blockHeight
  if blockHeight = 0 then toTarget params.genesisTargetCompact
  else asertNextTargetWithParams anchor blockTimestamp blockHeight params

/-- The canonical target of a block on a network. -/
def computeExpectedTarget (networkMagic : UInt32) (blockTimestamp : Timestamp)
    (blockHeight : BlockHeight) : Result Target := do
  let params ← powParamsForNetworkAtHeight networkMagic blockHeight
  if usesDevFixedTarget networkMagic then toTarget params.maxCompactTarget
  else do
    let raw ← rawExpectedTarget networkMagic params blockTimestamp blockHeight
    if isRescueHeight networkMagic blockHeight then canonicalizeRescueCompactTarget raw
    else canonicalizeCompactTarget raw

/-! ## Difficulty -/

/-- The work of a block whose target is `target`, as a 128-bit number: `numerator / target`, its high
half if that is not zero. -/
def difficultyOf (numerator target : Nat) : Nat :=
  if target = 0 then 2 ^ 128 - 1
  else
    let quotient := numerator / target
    if quotient / 2 ^ 128 = 0 then max (quotient % 2 ^ 128) 1 else quotient / 2 ^ 128 % 2 ^ 128

/-- The work of a target on the legacy scale. -/
def targetToDifficulty (target : Target) : Nat := difficultyOf maxTargetBytes.toNat target.toNat

/-- The target of unit work on a network at a height. -/
def difficultyNumerator (networkMagic : UInt32) (height : BlockHeight) : Result Target :=
  if isRescueHeight networkMagic height then toTarget mainnetAsertRescueMaxCompactTarget
  else .ok maxTargetBytes

/-- The work of a block on a network at a height. -/
def targetToDifficultyForNetworkHeight (networkMagic : UInt32) (height : BlockHeight)
    (target : Target) : Result Nat := do
  let numerator ← difficultyNumerator networkMagic height
  pure (difficultyOf numerator.toNat target.toNat)

/-- **When a harder target counts for no less work.** The quotient is projected to its high half as
soon as that is not zero, so a target at or below `numerator / 2 ^ 128` counts for less than a target
just above it. -/
theorem difficultyOf_le_iff {numerator t₁ t₂ : Nat} (positive : 0 < t₁) (harder : t₁ ≤ t₂)
    (fits : numerator < 2 ^ 256) : difficultyOf numerator t₂ ≤ difficultyOf numerator t₁ ↔
      (t₁ * 2 ^ 128 ≤ numerator → numerator < t₂ * 2 ^ 128 →
        numerator / t₂ * 2 ^ 128 ≤ numerator / t₁) := by
  have positive₂ : 0 < t₂ := positive.trans_le harder
  have quotients : numerator / t₂ ≤ numerator / t₁ := Nat.div_le_div_left harder positive
  have bound : numerator / t₁ < 2 ^ 256 := (Nat.div_le_self _ _).trans_lt fits
  have high : ∀ t, 0 < t → (t * 2 ^ 128 ≤ numerator ↔ 2 ^ 128 ≤ numerator / t) := by
    intro t ht
    rw [Nat.le_div_iff_mul_le ht, Nat.mul_comm]
  have low : numerator < t₂ * 2 ^ 128 ↔ numerator / t₂ < 2 ^ 128 := by
    rw [← not_le, high t₂ positive₂, not_le]
  rw [high t₁ positive, low]
  simp only [difficultyOf, positive.ne', positive₂.ne', if_false]
  generalize numerator / t₁ = q₁ at quotients bound
  generalize numerator / t₂ = q₂ at quotients
  -- the two halves of each quotient
  by_cases above₁ : q₁ / 2 ^ 128 = 0 <;> by_cases above₂ : q₂ / 2 ^ 128 = 0
  all_goals
    simp only [above₁, above₂, if_true, if_false]
    omega

/-- The numerator of the work is a target in every network at every height. -/
theorem difficultyNumerator_eq_ok (networkMagic : UInt32) (height : BlockHeight) :
    ∃ numerator, difficultyNumerator networkMagic height = .ok numerator := by
  unfold difficultyNumerator
  split
  · exact ⟨BitVec.ofNat _ (0xffff * 2 ^ 232), by decide +kernel⟩
  · exact ⟨maxTargetBytes, rfl⟩

/-- **Work is antitone in the target** exactly where the projection does not come between: unless the
harder target has a quotient of 128 bits or more and the other one has not, and then only if its
quotient is `2 ^ 128` times as large. -/
theorem work_antitone_iff (networkMagic : UInt32) (height : BlockHeight) (t₁ t₂ : Target)
    (admitted : validateTargetBounds t₁ = .ok ()) (harder : t₁.toNat ≤ t₂.toNat) :
    ∃ numerator work₁ work₂, difficultyNumerator networkMagic height = .ok numerator ∧
      targetToDifficultyForNetworkHeight networkMagic height t₁ = .ok work₁ ∧
      targetToDifficultyForNetworkHeight networkMagic height t₂ = .ok work₂ ∧
      (work₂ ≤ work₁ ↔ (t₁.toNat * 2 ^ 128 ≤ numerator.toNat →
        numerator.toNat < t₂.toNat * 2 ^ 128 →
          numerator.toNat / t₂.toNat * 2 ^ 128 ≤ numerator.toNat / t₁.toNat)) := by
  obtain ⟨numerator, found⟩ := difficultyNumerator_eq_ok networkMagic height
  simp only [validateTargetBounds, bind_eq_ok, rejectIf_eq_ok, not_lt] at admitted
  obtain ⟨-, -, least⟩ := admitted
  have positive : 0 < t₁.toNat := lt_of_lt_of_le (by decide) least
  exact ⟨numerator, _, _, found, by rw [targetToDifficultyForNetworkHeight, found]; rfl,
    by rw [targetToDifficultyForNetworkHeight, found]; rfl,
    difficultyOf_le_iff positive harder numerator.isLt⟩

/-- Two targets with quotients below `2 ^ 128`: the harder one counts for more. -/
theorem work_antitone_low : ∃ numerator work₁ work₂,
    difficultyNumerator networkMagicTestnet 0 = .ok numerator ∧
      targetToDifficultyForNetworkHeight networkMagicTestnet 0 (BitVec.ofNat _ (2 ^ 200)) =
        .ok work₁ ∧
      targetToDifficultyForNetworkHeight networkMagicTestnet 0 (BitVec.ofNat _ (2 ^ 201)) =
        .ok work₂ ∧ work₂ ≤ work₁ := by
  obtain ⟨numerator, work₁, work₂, found, first, second, holds⟩ :=
    work_antitone_iff networkMagicTestnet 0 (BitVec.ofNat _ (2 ^ 200)) (BitVec.ofNat _ (2 ^ 201))
      (by decide +kernel) (by decide +kernel)
  refine ⟨numerator, work₁, work₂, found, first, second, holds.mpr fun high => ?_⟩
  cases found
  exact absurd high (by decide +kernel)

/-- **A harder block counts for less work**: the target `2 ^ 111` counts for 1, the easier target
`2 ^ 112` for `2 ^ 128 - 1`. -/
theorem work_not_antitone :
    validateTargetBounds (BitVec.ofNat _ (2 ^ 111)) = .ok () ∧
      validateTargetBounds (BitVec.ofNat _ (2 ^ 112)) = .ok () ∧
      targetToDifficultyForNetworkHeight networkMagicMainnet 0 (BitVec.ofNat _ (2 ^ 111)) = .ok 1 ∧
      targetToDifficultyForNetworkHeight networkMagicMainnet 0 (BitVec.ofNat _ (2 ^ 112)) =
        .ok (2 ^ 128 - 1) := by
  decide +kernel

/-! ## Validation -/

section

variable [Primitives]

/-- How the proof of work of a block is validated. -/
inductive PowValidationMode where
  | RandomX
  | FastDevOnly
  deriving DecidableEq, Repr

/-- The validation mode of a network in a production build. -/
def powValidationModeForNetwork (networkMagic : UInt32) : Result PowValidationMode :=
  if ¬ (networkMagic = networkMagicMainnet ∨ networkMagic = networkMagicTestnet ∨
      networkMagic = networkMagicRegtest) then
    .error (.invalid
      s!"unknown network magic 0x{hexNat 8 networkMagic.toNat} for PoW validation")
  else if networkMagic = networkMagicRegtest then .ok .FastDevOnly
  else if Primitives.fastRegtestMiningRequested then .error (.invalid
    "DOM_REGTEST_FAST_MINING=1 is only allowed on regtest/devtest/test mode")
  else .ok .RandomX

/-- The fast development hash: the high half is zeroed. -/
def fastPowHash (seed : Hash256) (preimage : Bytes) : Hash256 :=
  BitVec.ofNat _ ((Primitives.blake2b256
    (tagOctets "DOM_FAST_POW_V1" ++ seed.toList ++ preimage)).toNat % 2 ^ 128)

/-- Whether a hash meets a target. -/
def hashMeetsTarget (hash : Hash256) (target : Target) : Bool := hash.toNat ≤ target.toNat

/-- The hash the mode of a network computes. -/
def powHash (mode : PowValidationMode) (seed : Hash256) (preimage : Bytes) : Result Hash256 :=
  match mode with
  | .RandomX => Primitives.randomxHash seed preimage
  | .FastDevOnly => .ok (fastPowHash seed preimage)

/-- Validate a claimed hash in the mode of a network. -/
def validatePowHashForNetwork (networkMagic : UInt32) (preimage : Bytes) (claimed seed : Hash256)
    (target : Target) : Result Bool := do
  let mode ← powValidationModeForNetwork networkMagic
  let computed ← powHash mode seed preimage
  pure (computed = claimed ∧ hashMeetsTarget claimed target)

end

/-- The height whose block hash seeds RandomX at a height. -/
def randomxSeedHeight (height : Nat) : Nat :=
  let epoch := height / randomxSeedInterval
  if epoch = 0 then 0 else epoch * randomxSeedInterval - randomxSeedOffset

end DomProtocol
