import DomProtocol.Pow

/-! # The ASERT target as one formula (`dom-pow`)

The source computes a target with 128-bit intermediate values and a limited shift. Under the
parameters of a known network none of them overflows, and the target is **`asertTarget`**, the anchor
target scaled by the exponent and clamped; `asert_exact_monotone` says so, and how the target moves
with time and height. -/

namespace DomProtocol

/-! ## The formula -/

/-- Shift by a signed number of bits, rounding down. -/
def shiftBits (value : Nat) (bits : Int) : Nat := value * 2 ^ bits.toNat / 2 ^ (-bits).toNat

/-- Bring a number into the range of targets. -/
def clampTarget (maxTarget value : Nat) : Nat := max minTargetBytes.toNat (min value maxTarget)

/-- `2 ^ (fraction / 65536)` in units of the radix. -/
def asertFactor (fraction : Int) : Nat := asertFracTable.getD (fraction / 256).toNat 0

/-- The anchor target scaled by an exponent in units of `2 ^ -16`. -/
def asertScaled (anchorTarget : Nat) (exponent : Int) : Nat :=
  shiftBits (anchorTarget * asertFactor (exponent % 65536) / 65536) (exponent / 65536)

/-- The scaled anchor target, clamped. -/
def asertTarget (anchorTarget maxTarget : Nat) (exponent : Int) : Nat :=
  clampTarget maxTarget (asertScaled anchorTarget exponent)

/-- The exponent of a block: the half lives it is late. -/
def asertExponent (anchor : AsertAnchor) (params : PowParams) (blockTimestamp : Timestamp)
    (blockHeight : BlockHeight) : Int :=
  65536 * ((blockTimestamp.toNat - anchor.timestamp.toNat) -
    params.targetSpacing * (blockHeight.toNat - anchor.height.toNat)) / params.halfLife

/-! ## Exactness -/

theorem checkedI128_eq {value : Int} (low : -2 ^ 126 ≤ value) (high : value < 2 ^ 126) :
    checkedI128 value = some value :=
  if_pos ⟨by omega, by omega⟩

theorem floorDivI128_eq {a b : Int} (positive : 0 < b) (low : -2 ^ 125 ≤ a) (high : a < 2 ^ 125) :
    floorDivI128 a b = .ok (a / b) := by
  have hlow : -2 ^ 125 ≤ a / b := by
    rw [Int.le_ediv_iff_mul_le positive]
    nlinarith
  have hhigh : a / b < 2 ^ 125 := by
    rw [Int.ediv_lt_iff_lt_mul positive]
    nlinarith
  have hpositive : ¬ b < 0 := by omega
  simp only [floorDivI128, rejectIf_of_not _ positive.ne', ok_bind, Int.tdiv_eq_ediv,
    Int.tmod_eq_emod, Int.sign_eq_one_of_pos positive, hpositive, decide_false]
  by_cases hexact : 0 ≤ a ∨ b ∣ a
  · rw [if_pos hexact, if_pos hexact, Int.add_zero, checkedI128_eq (by omega) (by omega)]
    refine if_neg ?_
    rintro ⟨hrest, hsign⟩
    obtain hnonneg | hdvd := hexact
    · simp [hnonneg] at hsign
    · simp [Int.emod_eq_zero_of_dvd hdvd] at hrest
  · rw [if_neg hexact, if_neg hexact, checkedI128_eq (by omega) (by omega)]
    have hrest : a % b < b := Int.emod_lt_of_pos a positive
    rw [not_or, not_le] at hexact
    have hif : a % b - (b.natAbs : Int) ≠ 0 ∧ decide (a < 0) ≠ false :=
      ⟨by omega, by simpa using hexact.1⟩
    show (if _ then _ else _) = _
    rw [if_pos hif, Int.add_sub_cancel, checkedI128_eq (by omega) (by omega)]
    rfl

/-- The two halves lose nothing. -/
theorem mul256DivRadix_eq {value multiplier : Nat} (small : value < 2 ^ 248)
    (few : multiplier ≤ 2 ^ 17) :
    (mul256DivRadix (value / 2 ^ 128) (value % 2 ^ 128) multiplier).1 * 2 ^ 128 +
      (mul256DivRadix (value / 2 ^ 128) (value % 2 ^ 128) multiplier).2 =
      value * multiplier / 65536 := by
  have hsplit : value * multiplier =
      2 ^ 128 * (value / 2 ^ 128 * multiplier) + value % 2 ^ 128 * multiplier := by
    rw [← Nat.mul_assoc, ← Nat.add_mul, Nat.div_add_mod]
  have hhigh : value / 2 ^ 128 * multiplier ≤ 2 ^ 120 * 2 ^ 17 :=
    Nat.mul_le_mul (by omega) few
  have hlow : value % 2 ^ 128 * multiplier ≤ 2 ^ 128 * 2 ^ 17 :=
    Nat.mul_le_mul (by omega) few
  simp only [mul256DivRadix, hsplit]
  generalize value / 2 ^ 128 * multiplier = hi at *
  generalize value % 2 ^ 128 * multiplier = lo at *
  omega

/-- The shift of the code, which stops at 255 bits and saturates. -/
def limitedShift (value : Nat) (integerPart : Int) : Nat :=
  if 0 ≤ integerPart then shiftLeft256 value (min integerPart 255).toNat
  else value / 2 ^ (min (-integerPart) 255).toNat

/-- **The limited shift is exact** below `2 ^ 255`. -/
theorem limitedShift_eq {value : Nat} (integerPart : Int) (positive : 0 < value)
    (small : value < 2 ^ 255) : limitedShift value integerPart = shiftBits value integerPart ∨
      2 ^ 255 ≤ limitedShift value integerPart ∧ 2 ^ 255 ≤ shiftBits value integerPart := by
  unfold limitedShift shiftBits
  split
  · obtain ⟨n, rfl⟩ := Int.eq_ofNat_of_zero_le ‹_›
    have hgrows : 2 ^ n ≤ value * 2 ^ n := Nat.le_mul_of_pos_left _ positive
    have hshift : (min (n : Int) 255).toNat = min n 255 := by omega
    simp only [shiftLeft256, hshift, Int.toNat_natCast, Int.toNat_neg_natCast, pow_zero, Nat.div_one]
    by_cases hn : n ≤ 255
    · rw [min_eq_left hn]
      split
      · exact .inl rfl
      · exact .inr ⟨by omega, by omega⟩
    · have hmore : 2 ^ 255 ≤ 2 ^ n := Nat.pow_le_pow_right (by decide) (by omega)
      rw [min_eq_right (by omega)]
      refine .inr ⟨?_, by omega⟩
      split <;> omega
  · obtain ⟨n, rfl⟩ := Int.eq_negSucc_of_lt_zero (not_le.mp ‹_›)
    have hshift : (min (-Int.negSucc n) 255).toNat = min (n + 1) 255 := by omega
    refine .inl ?_
    rw [hshift, Int.toNat_negSucc, Int.neg_negSucc, pow_zero, Nat.mul_one]
    show _ = value / 2 ^ (n + 1)
    by_cases hn : n + 1 ≤ 255
    · rw [min_eq_left hn]
    · have hmore : 2 ^ 255 ≤ 2 ^ (n + 1) := Nat.pow_le_pow_right (by decide) (by omega)
      rw [min_eq_right (by omega), Nat.div_eq_of_lt small, Nat.div_eq_of_lt (by omega)]

/-- **Scaling is exact**: the saturations and cut-off shifts of the code are beyond the clamp. -/
theorem applyExponent_eq {anchorTarget maxTarget : Target} {multiplier : Nat} (integerPart : Int)
    (positive : 0 < anchorTarget.toNat) (small : anchorTarget.toNat < 2 ^ 248)
    (least : 2 ^ 16 ≤ multiplier) (few : multiplier ≤ 2 ^ 17)
    (ordered : minTargetBytes.toNat ≤ maxTarget.toNat) (room : maxTarget.toNat < 2 ^ 248) :
    (applyExponent anchorTarget integerPart multiplier maxTarget).toNat =
      clampTarget maxTarget.toNat
        (shiftBits (anchorTarget.toNat * multiplier / 65536) integerPart) := by
  have hpositive : 0 < anchorTarget.toNat * multiplier / 65536 :=
    Nat.div_pos (by nlinarith) (by decide)
  have hsmall : anchorTarget.toNat * multiplier / 65536 < 2 ^ 255 := by
    have := Nat.mul_le_mul small.le few
    omega
  have hshift := limitedShift_eq integerPart hpositive hsmall
  unfold applyExponent
  simp only [mul256DivRadix_eq small few, clampTarget]
  show (if limitedShift _ _ > _ then _ else if limitedShift _ _ < _ then _
    else BitVec.ofNat _ (limitedShift _ _) : Target).toNat = _
  generalize limitedShift (anchorTarget.toNat * multiplier / 65536) integerPart = result at *
  split
  · omega
  · split
    · omega
    · rw [BitVec.toNat_ofNat]
      omega

/-! ## Networks -/

/-- The networks the code knows. -/
def KnownNetwork (networkMagic : UInt32) : Prop :=
  networkMagic = networkMagicMainnet ∨ networkMagic = networkMagicTestnet ∨
    networkMagic = networkMagicRegtest

/-- What the formula needs of an anchor, of parameters and of their greatest target. -/
structure Regular (anchor : AsertAnchor) (params : PowParams) (maxTarget : Target) : Prop where
  genesisTarget : toTarget params.genesisTargetCompact = .ok anchor.target
  recent : 10 ^ 9 ≤ anchor.timestamp.toNat
  spacing : params.targetSpacing = 120
  halfLife : params.halfLife = 34560 ∨ params.halfLife = 1200
  anchorTarget : 0 < anchor.target.toNat ∧ anchor.target.toNat < 2 ^ 248
  range : minTargetBytes.toNat ≤ maxTarget.toNat ∧ maxTarget.toNat < 2 ^ 248

/-- **The anchor, the parameters and the greatest target that govern a height.** -/
structure Governs (networkMagic : UInt32) (height : BlockHeight) (anchor : AsertAnchor)
    (params : PowParams) (maxTarget : Target) : Prop where
  anchorAt : asertAnchorForNetworkHeight networkMagic height = .ok anchor
  paramsAt : powParamsForNetworkAtHeight networkMagic height = .ok params
  maxTargetAt : toTarget params.maxCompactTarget = .ok maxTarget
  reached : anchor.height ≤ height
  regular : Regular anchor params maxTarget

instance (anchor : AsertAnchor) (params : PowParams) (maxTarget : Target) :
    Decidable (Regular anchor params maxTarget) :=
  decidable_of_iff (_ ∧ _ ∧ _ ∧ _ ∧ _ ∧ _)
    ⟨fun ⟨h₁, h₂, h₃, h₄, h₅, h₆⟩ => ⟨h₁, h₂, h₃, h₄, h₅, h₆⟩,
      fun ⟨h₁, h₂, h₃, h₄, h₅, h₆⟩ => ⟨h₁, h₂, h₃, h₄, h₅, h₆⟩⟩

/-- The height matters only through the rescue rules. -/
theorem governed_congr {networkMagic : UInt32} {height height' : BlockHeight}
    (same : isRescueHeight networkMagic height = isRescueHeight networkMagic height') :
    asertAnchorForNetworkHeight networkMagic height =
        asertAnchorForNetworkHeight networkMagic height' ∧
      powParamsForNetworkAtHeight networkMagic height =
        powParamsForNetworkAtHeight networkMagic height' := by
  simp only [asertAnchorForNetworkHeight, powParamsForNetworkAtHeight, same, and_self]

/-- Every height of a known network is governed. -/
theorem exists_governs {networkMagic : UInt32} (known : KnownNetwork networkMagic)
    (height : BlockHeight) : ∃ anchor params maxTarget,
      Governs networkMagic height anchor params maxTarget := by
  obtain ⟨least, hleast, hle, hsame⟩ : ∃ least ∈ [(0 : BlockHeight), mainnetAsertRescueHeight],
      least ≤ height ∧ isRescueHeight networkMagic height = isRescueHeight networkMagic least := by
    cases hrescue : isRescueHeight networkMagic height with
    | true =>
      obtain ⟨rfl, hheight⟩ := of_decide_eq_true hrescue
      exact ⟨_, by simp, hheight, rfl⟩
    | false =>
      exact ⟨0, by simp, UInt64.le_iff_toNat_le.mpr (Nat.zero_le _),
        by simp [isRescueHeight, mainnetAsertRescueHeight]⟩
  have hcases : ∀ least ∈ [(0 : BlockHeight), mainnetAsertRescueHeight],
      (match asertAnchorForNetworkHeight networkMagic least,
        powParamsForNetworkAtHeight networkMagic least with
      | .ok anchor, .ok params => match toTarget params.maxCompactTarget with
        | .ok maxTarget => decide (Regular anchor params maxTarget ∧ anchor.height ≤ least)
        | .error _ => false
      | _, _ => false) = true := by
    refine List.forall_mem_cons.mpr ⟨?_, List.forall_mem_singleton.mpr ?_⟩ <;>
      obtain rfl | rfl | rfl := known <;> decide +kernel
  obtain ⟨hanchor, hparams⟩ := governed_congr hsame
  have hcase := hcases least hleast
  split at hcase
  · split at hcase
    · obtain ⟨hregular, hreached⟩ := of_decide_eq_true hcase
      exact ⟨_, _, _, hanchor.trans ‹_›, hparams.trans ‹_›, ‹_›, UInt64.le_trans hreached hle,
        hregular⟩
    · cases hcase
  · cases hcase

theorem asertFracTable_bounds :
    ∀ i < 256, 65536 ≤ asertFracTable.getD i 0 ∧ asertFracTable.getD i 0 ≤ 131072 := by
  decide +kernel

/-- **ASERT returns its formula.** -/
theorem Governs.asertNextTargetWithParams_eq {networkMagic : UInt32} {height : BlockHeight}
    {anchor : AsertAnchor} {params : PowParams} {maxTarget : Target}
    (governs : Governs networkMagic height anchor params maxTarget) (timestamp : Timestamp) :
    ∃ target, asertNextTargetWithParams anchor timestamp height params = .ok target ∧
      target.toNat = asertTarget anchor.target.toNat maxTarget.toNat
        (asertExponent anchor params timestamp height) := by
  obtain ⟨-, -, hmax, hreached, -, -, hspacing, hhalfLife, htarget, hrange⟩ := governs
  have hdelta := UInt64.toNat_sub_of_le _ _ hreached
  have htime := timestamp.toNat_lt
  have hanchor := anchor.timestamp.toNat_lt
  have hheight := height.toNat_lt
  rw [UInt64.le_iff_toNat_le] at hreached
  have hsub : checkedSub height anchor.height = some (height - anchor.height) :=
    checkedSub_eq_some.mpr (by omega)
  unfold asertNextTargetWithParams asertExponentSeconds asertExponent
  rw [hspacing, hsub, okOr_some, ok_bind, hdelta, Nat.cast_sub hreached,
    checkedI128_eq (by omega) (by omega), okOr_some, ok_bind,
    checkedI128_eq (by omega) (by omega), okOr_some, ok_bind,
    checkedI128_eq (by omega) (by omega), okOr_some, ok_bind, hmax]
  obtain ⟨late, hlate⟩ : ∃ late : Int, (timestamp.toNat : Int) - anchor.timestamp.toNat -
      (120 : Nat) * (height.toNat - anchor.height.toNat) = late := ⟨_, rfl⟩
  -- the code takes the exponent in units of `2 ^ -8`, which are whole multiples of the finer ones
  have hexponent : late * 256 / params.halfLife = 65536 * late / params.halfLife / 256 ∧
      -2 ^ 100 ≤ 65536 * late / params.halfLife ∧ 65536 * late / params.halfLife < 2 ^ 100 := by
    obtain hhalfLife | hhalfLife := hhalfLife <;> rw [hhalfLife] <;> omega
  rw [Int.mul_comm _ ((120 : Nat) : Int), hlate, floorDivI128_eq (by omega) (by omega) (by omega),
    hexponent.1, ok_bind]
  generalize 65536 * late / (params.halfLife : Int) = exponent at hexponent ⊢
  rw [floorDivI128_eq (by decide) (by omega) (by omega), ok_bind,
    checkedI128_eq (by omega) (by omega), okOr_some, ok_bind,
    checkedI128_eq (by omega) (by omega), okOr_some, ok_bind, ok_bind,
    show exponent / 256 / 256 = exponent / 65536 by omega,
    show min (exponent / 256 - exponent / 65536 * 256).toNat 255 = (exponent % 65536 / 256).toNat by
      omega]
  obtain ⟨hleast, hfew⟩ := asertFracTable_bounds (exponent % 65536 / 256).toNat (by omega)
  exact ⟨_, rfl, applyExponent_eq _ htarget.1 htarget.2 hleast hfew hrange.1 hrange.2⟩

/-! ## Monotonicity -/

/-- Each factor is at least a quarter of a percent above the one before. -/
theorem asertFracTable_step :
    ∀ i < 255, 401 * asertFracTable.getD i 0 ≤ 400 * asertFracTable.getD (i + 1) 0 := by
  decide +kernel

theorem clampTarget_mono (maxTarget : Nat) : Monotone (clampTarget maxTarget) := by
  intro a b h
  unfold clampTarget
  omega

theorem shiftBits_mono (bits : Int) : Monotone fun value => shiftBits value bits := by
  intro a b h
  exact Nat.div_le_div_right (Nat.mul_le_mul_right _ h)

/-- One bit more is twice the value. -/
theorem shiftBits_succ (value : Nat) (bits : Int) :
    shiftBits (2 * value) bits = shiftBits value (bits + 1) := by
  unfold shiftBits
  rcases le_or_gt 0 bits with h | h
  · rw [show (bits + 1).toNat = bits.toNat + 1 by omega, show (-bits).toNat = 0 by omega,
      show (-(bits + 1)).toNat = 0 by omega, pow_succ', Nat.mul_comm 2, Nat.mul_assoc]
  · rw [show bits.toNat = 0 by omega, show (bits + 1).toNat = 0 by omega,
      show (-bits).toNat = (-(bits + 1)).toNat + 1 by omega, pow_succ', pow_zero, Nat.mul_one,
      Nat.mul_one, Nat.mul_div_mul_left _ _ (by decide)]

/-- **A greater exponent gives no smaller target.** -/
theorem asertScaled_mono (anchorTarget : Nat) : Monotone (asertScaled anchorTarget) := by
  refine monotone_int_of_le_succ fun exponent => ?_
  unfold asertScaled
  by_cases hwraps : exponent % 65536 = 65535
  · -- a new doubling starts, and the last factor of the table is at most two
    rw [show (exponent + 1) / 65536 = exponent / 65536 + 1 by omega, ← shiftBits_succ,
      show (exponent + 1) % 65536 = 0 by omega, hwraps]
    refine shiftBits_mono _ ?_
    show anchorTarget * 130717 / 65536 ≤ 2 * (anchorTarget * 65536 / 65536)
    omega
  · rw [show (exponent + 1) / 65536 = exponent / 65536 by omega]
    refine shiftBits_mono _ (Nat.div_le_div_right (Nat.mul_le_mul_left _ ?_))
    unfold asertFactor
    by_cases hsame : (exponent + 1) % 65536 / 256 = exponent % 65536 / 256
    · rw [hsame]
    · rw [show ((exponent + 1) % 65536 / 256).toNat = (exponent % 65536 / 256).toNat + 1 by omega]
      have := asertFracTable_step (exponent % 65536 / 256).toNat (by omega)
      omega

/-- A later or lower block is no less late. -/
theorem Regular.exponent_le {anchor : AsertAnchor} {params : PowParams} {maxTarget : Target}
    (regular : Regular anchor params maxTarget) {timestamp timestamp' : Timestamp}
    {height height' : BlockHeight} (earlier : timestamp' ≤ timestamp) (higher : height ≤ height') :
    asertExponent anchor params timestamp' height' ≤
      asertExponent anchor params timestamp height := by
  refine Int.ediv_le_ediv ?_ ?_
  · obtain h | h := regular.halfLife <;> omega
  · rw [regular.spacing]
    have htime := UInt64.le_iff_toNat_le.mp earlier
    have hbehind := UInt64.le_iff_toNat_le.mp higher
    omega

/-- **ASERT is exact and monotone**: on a known network at every height it returns the formula for
every timestamp; a later timestamp gives no smaller target, and a greater height under the same
rules no greater one. -/
theorem asert_exact_monotone {networkMagic : UInt32} (known : KnownNetwork networkMagic)
    (height : BlockHeight) : ∃ anchor params maxTarget,
      asertAnchorForNetworkHeight networkMagic height = .ok anchor ∧
      powParamsForNetworkAtHeight networkMagic height = .ok params ∧
      toTarget params.maxCompactTarget = .ok maxTarget ∧
      ∀ height' ≥ height, isRescueHeight networkMagic height' = isRescueHeight networkMagic height →
        ∀ timestamp, ∀ timestamp' ≤ timestamp, ∃ target target',
          asertNextTargetWithParams anchor timestamp height params = .ok target ∧
          target.toNat = asertTarget anchor.target.toNat maxTarget.toNat
            (asertExponent anchor params timestamp height) ∧
          asertAnchorForNetworkHeight networkMagic height' = .ok anchor ∧
          powParamsForNetworkAtHeight networkMagic height' = .ok params ∧
          asertNextTargetWithParams anchor timestamp' height' params = .ok target' ∧
          target'.toNat ≤ target.toNat := by
  obtain ⟨anchor, params, maxTarget, governs⟩ := exists_governs known height
  refine ⟨anchor, params, maxTarget, governs.anchorAt, governs.paramsAt, governs.maxTargetAt, ?_⟩
  intro height' hheight hsame timestamp timestamp' htimestamp
  obtain ⟨hanchor, hparams⟩ := governed_congr hsame
  have governs' : Governs networkMagic height' anchor params maxTarget :=
    ⟨hanchor.trans governs.anchorAt, hparams.trans governs.paramsAt, governs.maxTargetAt,
      UInt64.le_trans governs.reached hheight, governs.regular⟩
  obtain ⟨target, hok, htarget⟩ := governs.asertNextTargetWithParams_eq timestamp
  obtain ⟨target', hok', htarget'⟩ := governs'.asertNextTargetWithParams_eq timestamp'
  refine ⟨target, target', hok, htarget, governs'.anchorAt, governs'.paramsAt, hok', ?_⟩
  rw [htarget, htarget']
  exact clampTarget_mono _ (asertScaled_mono _ (governs.regular.exponent_le htimestamp hheight))

/-- A late block of mainnet under the rescue rules. -/
theorem asert_exact_monotone_rescue : ∃ anchor params,
    asertAnchorForNetworkHeight networkMagicMainnet 5000 = .ok anchor ∧
      powParamsForNetworkAtHeight networkMagicMainnet 5000 = .ok params ∧
      ∃ target, asertNextTargetWithParams anchor 1784700000 5000 params = .ok target := by
  obtain ⟨anchor, params, maxTarget, hanchor, hparams, -, h⟩ :=
    asert_exact_monotone (.inl rfl : KnownNetwork networkMagicMainnet) 5000
  obtain ⟨target, -, hok, -⟩ := h 5000 (UInt64.le_refl _) rfl 1784700000 0 (by decide)
  exact ⟨anchor, params, hanchor, hparams, target, hok⟩

end DomProtocol
