import DomProtocol.Lib.Reentry
import DomProtocol.ConditionLock.Accounting

/-! # The token escrow (`contracts`, `ConditionLockERC20V2`)

The variant that moves tokens. What a transfer delivered is inferred from two balance probes and the
status of the call, with opposite defaults when a probe does not answer: a push assumes delivery, a
pull assumes none.

**`TokenCode`** is what the tokens do during one call of the escrow, any code included. For a token
with a truthful ledger (**`TokenCode.Truthful`**) the escrow is solvent, whatever the others do:
`token_escrow_solvent`. -/

namespace DomProtocol.ConditionLock

/-- The true balance of the escrow in every token. -/
abbrev Ledgers := Address → Nat

/-- The world of the token escrow. -/
abbrev TokenVault := World Ledgers

/-- **What the tokens do during one call of the escrow.** A probe that does not answer with one word,
and a call that fails, are `none`. -/
structure TokenCode where
  hasCode : Address → Bool
  probeBefore : Address → TokenVault → Option UInt256
  probeAfter : Address → TokenVault → Option UInt256
  transfer : Address → Address → UInt256 → TokenVault → Option TokenVault
  transferFrom : Address → Address → UInt256 → TokenVault → Option TokenVault

section Token

variable [Evm]

variable {w w' : TokenVault} {depth : Nat} {token : TokenCode} {asset target : Address}
  {amount : UInt256} {msg : Msg}

/-- The token variant handles neither the native asset nor an address without code. -/
def requireToken (token : TokenCode) (asset : Address) : Except Revert Unit := do
  rejectIf (asset = 0) .AssetMismatch
  rejectIf (token.hasCode asset = false) .NotAContract

/-- Pull exactly the amount from the funder. -/
def takeTokens (token : TokenCode) (msg : Msg) (asset : Address) (amount : UInt256) (w : TokenVault) :
    Except Revert TokenVault := do
  requireToken token asset
  rejectIf (msg.value ≠ 0) .ValueMismatch
  let balanceBefore ← okOr .UnmeasurableAsset (token.probeBefore asset w)
  let w ← okOr (.SafeERC20FailedOperation asset) (token.transferFrom asset msg.sender amount w)
  let balanceAfter ← okOr .UnmeasurableAsset (token.probeAfter asset w)
  -- checked subtraction
  rejectIf (balanceAfter < balanceBefore) .Panic
  let received := balanceAfter - balanceBefore
  rejectIf (received ≠ amount) (.InexactTransfer amount received)
  pure w

/-- The measured decrease, clamped to the amount. A balance that went up counts as no delivery. -/
def measuredDelivery (balanceBefore balanceAfter amount : UInt256) : UInt256 :=
  let moved := if balanceBefore > balanceAfter then balanceBefore - balanceAfter else 0
  if moved > amount then amount else moved

/-- Move up to the amount and report how much provably left custody. -/
def deliver (token : TokenCode) (asset target : Address) (amount : UInt256)
    (assumeDeliveredWhenUnmeasured : Bool) (w : TokenVault) : UInt256 × TokenVault :=
  let before := token.probeBefore asset w
  match token.transfer asset target amount w with
  -- the frame reverted, so nothing moved
  | none => (0, w)
  | some w =>
    let delivered :=
      match before, token.probeAfter asset w with
      | some balanceBefore, some balanceAfter => measuredDelivery balanceBefore balanceAfter amount
      | _, _ => if assumeDeliveredWhenUnmeasured then amount else 0
    (delivered, w.pay target asset delivered)

/-- The hooks of the token escrow, when the tokens behave as `token`. -/
def tokenHooks (token : TokenCode) : Hooks Ledgers where
  requireSupportedAsset := requireToken token
  takeCustody := takeTokens token
  payoutGasFloor := 200000
  tryPushPayout target asset amount w := deliver token asset target amount true w
  pullTransfer target asset amount w := deliver token asset target amount false w

/-! ## Runs -/

/-- Tokens arrive without a call. -/
def Deposit (w w' : TokenVault) : Prop :=
  ∃ amounts : Ledgers, w' = { w with assets := fun a => w.assets a + amounts a }

/-- Tokens leave. -/
def World.debit (w : TokenVault) (asset : Address) (amount : Nat) : TokenVault :=
  { w with assets := Function.update w.assets asset (w.assets asset - amount) }

/-- **Truthful ledgers.** The tokens in `truthful` report their ledger when they answer a probe, and
their completed transfers move at most the requested amount out of the escrow. Every token may run
any code that does what `R` allows, before and after the tokens move. -/
structure TokenCode.Truthful (token : TokenCode) (truthful : Address → Prop)
    (R : TokenVault → TokenVault → Prop) : Prop where
  probeBefore : ∀ {asset w value}, truthful asset → token.probeBefore asset w = some value →
    value.toNat = w.assets asset
  probeAfter : ∀ {asset w value}, truthful asset → token.probeAfter asset w = some value →
    value.toNat = w.assets asset
  transfer : ∀ {asset target amount w w'}, token.transfer asset target amount w = some w' →
    ∃ (w₁ : TokenVault) (moved : Nat), R w w₁ ∧
      (truthful asset → moved ≤ amount.toNat ∧ moved ≤ w₁.assets asset) ∧ R (w₁.debit asset moved) w'
  transferFrom : ∀ {asset sender amount w w'}, token.transferFrom asset sender amount w = some w' →
    R w w'

/-- A completed call of the escrow. -/
def TokenCall (truthful : Address → Prop) (R : TokenVault → TokenVault → Prop) (w w' : TokenVault) :
    Prop :=
  ∃ (call : Call) (msg : Msg) (token : TokenCode), msg.sender ≠ 0 ∧ token.Truthful truthful R ∧
    call.exec (tokenHooks token) msg w = .ok w'

/-- A step of a run: time passes, or a transaction runs code that can call the escrow. -/
inductive TokenStep (truthful : Address → Prop) : TokenVault → TokenVault → Prop
  | time (w : TokenVault) (elapsed : Nat) :
      TokenStep truthful w { w with timestamp := w.timestamp + elapsed }
  | transaction {w w' : TokenVault} (depth : Nat)
      (run : Reach Deposit (TokenCall truthful) depth w w') : TokenStep truthful w w'

/-- One pool for each token with a truthful ledger. -/
def tokenPools (truthful : Address → Prop) : Pools Ledgers where
  Pool := { asset // truthful asset }
  covers token asset := token.1 == asset
  custody ledgers token := ledgers token.1

/-! ## Proofs -/

variable {truthful : Address → Prop}

omit [Evm] in
theorem deposit_closure (moves : Relation.ReflTransGen Deposit w w') :
    w.SameBooks w' ∧ ∀ asset, w.assets asset ≤ w'.assets asset := by
  induction moves with
  | refl => exact ⟨rfl, fun _ => le_rfl⟩
  | tail _ move ih =>
    obtain ⟨same, grows⟩ := ih
    obtain ⟨amounts, rfl⟩ := move
    refine ⟨?_, fun asset => (grows asset).trans (Nat.le_add_right _ _)⟩
    rw [same]
    rfl

/-- While the guard is held, unknown code can only add tokens. -/
theorem reach_locked_token
    (reached : Reach Deposit (TokenCall truthful) depth w w') (entered : w.entered = true) :
    w.SameBooks w' ∧ ∀ asset, w.assets asset ≤ w'.assets asset := by
  refine deposit_closure (Reach.locked (L := fun v => v.entered = true) ?_ ?_ entered reached)
  · rintro v v' locked ⟨amounts, rfl⟩
    exact locked
  · rintro depth v v' locked ⟨call, msg, token, -, -, run⟩
    have unlocked := Call.exec_unlocked run
    rw [locked] at unlocked
    cases unlocked

/-- What a completed transfer takes from the ledgers: at most the amount, from its token only. -/
theorem transfer_spec (behaves : token.Truthful truthful (Reach Deposit (TokenCall truthful) depth))
    (h : token.transfer asset target amount w = some w') (entered : w.entered = true) :
    w.SameBooks w' ∧ (truthful asset → w.assets asset ≤ w'.assets asset + amount.toNat) ∧
      ∀ other, other ≠ asset → w.assets other ≤ w'.assets other := by
  obtain ⟨w₁, moved, first, bounded, last⟩ := behaves.transfer h
  obtain ⟨same₁, grows₁⟩ := reach_locked_token first entered
  have entered₁ : w₁.entered = true := by
    rw [same₁]
    exact entered
  obtain ⟨same₂, grows₂⟩ := reach_locked_token last entered₁
  refine ⟨?_, fun honest => ?_, fun other different => ?_⟩
  · rw [same₂, World.debit, same₁]
    rfl
  · obtain ⟨small, -⟩ := bounded honest
    have before := grows₁ asset
    have after := grows₂ asset
    simp only [World.debit, Function.update_self] at after
    omega
  · have after := grows₂ other
    simp only [World.debit, Function.update_of_ne different] at after
    exact (grows₁ other).trans after

omit [Evm] in
theorem measuredDelivery_le (balanceBefore balanceAfter amount : UInt256) :
    measuredDelivery balanceBefore balanceAfter amount ≤ amount := by
  unfold measuredDelivery
  simp only
  generalize (if balanceBefore > balanceAfter then balanceBefore - balanceAfter else 0) = moved
  split
  · exact BitVec.le_def.mpr le_rfl
  · rename_i small
    exact BitVec.not_lt.mp small

omit [Evm] in
/-- The clamp hides nothing when no more than the amount left. -/
theorem le_measuredDelivery {balanceBefore balanceAfter : UInt256}
    (limit : balanceBefore.toNat ≤ balanceAfter.toNat + amount.toNat) :
    balanceBefore.toNat ≤
      balanceAfter.toNat + (measuredDelivery balanceBefore balanceAfter amount).toNat := by
  unfold measuredDelivery
  simp only
  by_cases fell : balanceBefore > balanceAfter
  · rw [if_pos fell]
    split
    · exact limit
    · rw [BitVec.toNat_sub_of_le (BitVec.le_of_lt fell)]
      omega
  · have rose := BitVec.le_def.mp (BitVec.not_lt.mp fell)
    exact rose.trans (Nat.le_add_right _ _)

/-- **A delivery reports what left custody**: the measured decrease, or the whole amount when it was
assumed; so custody falls by no more than what is reported. -/
theorem deliver_spec
    (behaves : token.Truthful truthful (Reach Deposit (TokenCall truthful) depth))
    {delivered : UInt256} {assume : Bool}
    (h : deliver token asset target amount assume w = (delivered, w')) (entered : w.entered = true)
    (credible : assume = true ∨ delivered = amount) :
    w.SameStorage w' ∧ delivered ≤ amount ∧ w.Sent (tokenPools truthful) target asset delivered w' ∧
      (truthful asset → w.assets asset ≤ w'.assets asset + delivered.toNat) ∧
      ∀ other, other ≠ asset → w.assets other ≤ w'.assets other := by
  unfold deliver at h
  simp only at h
  split at h
  · cases h
    exact ⟨rfl, BitVec.le_def.mpr (Nat.zero_le _), sent_zero rfl, fun _ => Nat.le_add_right _ _,
      fun _ _ => le_rfl⟩
  · rename_i v transferred
    obtain ⟨same, bounded, others⟩ := transfer_spec behaves transferred entered
    have paid (delivered : UInt256) : w.SameStorage (v.pay target asset delivered) ∧
        w.Sent (tokenPools truthful) target asset delivered (v.pay target asset delivered) := by
      rw [same]
      exact ⟨rfl, sent_pay w target asset delivered⟩
    split at h
    · -- both probes answered: the measured decrease, at most the amount
      rename_i balanceBefore balanceAfter before after
      cases h
      refine ⟨(paid _).1, measuredDelivery_le _ _ _, (paid _).2, fun honest => ?_, others⟩
      have limit := bounded honest
      simp only [World.pay]
      rw [← behaves.probeBefore honest before, ← behaves.probeAfter honest after] at limit ⊢
      exact le_measuredDelivery limit
    · -- not measured: the default decides, and a pull that reports the amount was not assumed
      cases h
      refine ⟨(paid _).1, ?_, (paid _).2, fun honest => ?_, others⟩
      · cases assume
        · exact BitVec.le_def.mpr (Nat.zero_le _)
        · exact BitVec.le_def.mpr le_rfl
      · have limit := bounded honest
        rcases credible with rfl | full
        · exact limit
        · rwa [full]

theorem takeTokens_spec
    (behaves : token.Truthful truthful (Reach Deposit (TokenCall truthful) depth))
    (h : takeTokens token msg asset amount w = .ok w') (entered : w.entered = true) :
    w.SameBooks w' ∧ (truthful asset → w.assets asset + amount.toNat = w'.assets asset) ∧
      ∀ other, w.assets other ≤ w'.assets other := by
  simp only [takeTokens, bind_eq_ok, rejectIf_eq_ok, okOr_eq_ok, pure_eq_ok, not_not] at h
  obtain ⟨_, -, _, -, balanceBefore, before, v, moved, balanceAfter, after, _, ordered, _,
    received, rfl⟩ := h
  obtain ⟨same, grows⟩ := reach_locked_token (behaves.transferFrom moved) entered
  refine ⟨same, fun honest => ?_, grows⟩
  rw [← behaves.probeBefore honest before, ← behaves.probeAfter honest after, ← received]
  have := BitVec.le_def.mp (BitVec.not_lt.mp ordered)
  rw [BitVec.toNat_sub_of_le (BitVec.not_lt.mp ordered)]
  omega

omit [Evm] in
/-- A bound for the asset moved and for all others is a bound for every pool. -/
theorem tokenPools_share {before after : Ledgers}
    (own : truthful asset → before asset ≤ after asset + amount.toNat)
    (others : ∀ other, other ≠ asset → before other ≤ after other)
    (i : (tokenPools truthful).Pool) :
    (tokenPools truthful).custody before i ≤
      (tokenPools truthful).custody after i + (tokenPools truthful).share i asset amount := by
  obtain ⟨pool, honest⟩ := i
  by_cases same : pool = asset
  · subst same
    simpa [Pools.share, tokenPools] using own honest
  · simpa [Pools.share, tokenPools, same] using others pool same

theorem tokenHooks_lawful
    (behaves : token.Truthful truthful (Reach Deposit (TokenCall truthful) depth)) (msg : Msg) :
    (tokenHooks token).Lawful (tokenPools truthful) msg fun _ => 0 where
  take {asset _ w w'} h entered := by
    obtain ⟨same, took, grows⟩ := takeTokens_spec behaves h entered
    refine ⟨same, fun i => ?_⟩
    obtain ⟨pool, honest⟩ := i
    by_cases own : pool = asset
    · subst own
      simpa [Pools.share, tokenPools] using (took honest).le
    · simpa [Pools.share, tokenPools, own] using grows pool
  push h entered := by
    obtain ⟨same, le, sent, bounded, others⟩ := deliver_spec behaves h entered (.inl rfl)
    exact ⟨same, le, sent, tokenPools_share bounded others⟩
  pull h entered := by
    obtain ⟨same, -, sent, bounded, others⟩ := deliver_spec behaves h entered (.inr rfl)
    exact ⟨same, sent, tokenPools_share bounded others⟩

theorem tokenCall_sound (sound : w.Sound (tokenPools truthful))
    (called : TokenCall truthful (Reach Deposit (TokenCall truthful) depth) w w') :
    w'.Sound (tokenPools truthful) := by
  obtain ⟨call, msg, token, sender, behaves, run⟩ := called
  exact Call.exec_sound (tokenHooks_lawful behaves msg) sender run sound rfl fun _ => le_rfl

theorem deposit_sound (sound : w.Sound (tokenPools truthful))
    (move : Deposit w w') : w'.Sound (tokenPools truthful) := by
  obtain ⟨amounts, rfl⟩ := move
  refine ⟨sound.unlocked, fun i => ?_, sound.recorded.congr rfl rfl,
    sound.booked.congr rfl rfl rfl rfl⟩
  exact (sound.solvent i).trans (Nat.le_add_right (w.assets i.1) (amounts i.1))

theorem tokenStep_sound (sound : w.Sound (tokenPools truthful))
    (step : TokenStep truthful w w') : w'.Sound (tokenPools truthful) := by
  cases step with
  | time elapsed =>
    exact ⟨sound.unlocked, sound.solvent, sound.recorded.congr rfl rfl,
      sound.booked.congr rfl rfl rfl rfl⟩
  | transaction depth run =>
    exact Reach.invariant (P := World.Sound (tokenPools truthful)) deposit_sound tokenCall_sound
      sound run

/-- **The token escrow is solvent**: in every run of transactions, for every token with a truthful
ledger and whatever the other tokens do, the escrow's true balance of the token covers its unsettled
locks and its credits in that token. -/
theorem token_escrow_solvent (truthful : Address → Prop) (ledgers : Ledgers) (timestamp : Nat)
    (w : TokenVault)
    (run : Relation.ReflTransGen (TokenStep truthful) (deployed ledgers timestamp) w)
    (token : Address) (honest : truthful token) :
    w.liabilities (tokenPools truthful) ⟨token, honest⟩ ≤ w.assets token := by
  have sound : w.Sound (tokenPools truthful) := by
    induction run with
    | refl => exact deployed_sound _ ledgers timestamp
    | tail _ step ih => exact tokenStep_sound ih step
  exact sound.solvent ⟨token, honest⟩

/-- A single call whose tokens run no other code is a transaction. -/
theorem tokenStep_of_exec {call : Call}
    (sender : msg.sender ≠ 0) (behaves : token.Truthful truthful (Relation.ReflTransGen Deposit))
    (run : call.exec (tokenHooks token) msg w = .ok w') : TokenStep truthful w w' :=
  .transaction 1 (.single (.inr ⟨call, msg, token, sender, behaves, run⟩))

end Token

section Example

attribute [local instance] plainEvm

/-- Tokens that report their ledger, take what they are asked to take, and deliver only half. -/
def halfToken : TokenCode where
  hasCode _ := true
  probeBefore asset w := if w.assets asset < 2 ^ 256 then some (BitVec.ofNat 256 (w.assets asset)) else none
  probeAfter asset w := if w.assets asset < 2 ^ 256 then some (BitVec.ofNat 256 (w.assets asset)) else none
  transfer asset _ amount w := some (w.debit asset (min (amount.toNat / 2) (w.assets asset)))
  transferFrom asset _ amount w :=
    some { w with assets := fun a => w.assets a + if a = asset then amount.toNat else 0 }

theorem halfToken_truthful : halfToken.Truthful (fun _ => True) (Relation.ReflTransGen Deposit) := by
  have probe {asset : Address} {w : TokenVault} {value : UInt256}
      (h : halfToken.probeBefore asset w = some value) : value.toNat = w.assets asset := by
    simp only [halfToken, Option.ite_none_right_eq_some, Option.some.injEq] at h
    obtain ⟨fits, rfl⟩ := h
    exact Nat.mod_eq_of_lt fits
  constructor
  · exact fun _ h => probe h
  · exact fun _ h => probe h
  · intro asset target amount w w' h
    cases h
    refine ⟨w, _, .refl, fun _ => ⟨?_, min_le_right _ _⟩, .refl⟩
    exact (min_le_left _ _).trans (Nat.div_le_self _ _)
  · intro asset sender amount w w' h
    cases h
    exact .single ⟨_, rfl⟩

/-- A lock of 100 units of the token 7 for account 2 against the scalar 5, until time 10. -/
def tokenTerms : LockTerms := ⟨0, 0, 0, 0, 0, 7, 100, 2, Evm.scalarAddress 5, 10⟩

/-- Account 1 opens the lock and account 2 claims it. -/
def tokenRun : Except Revert TokenVault := do
  let opened ← Call.exec (tokenHooks halfToken) (.open tokenTerms) ⟨1, 0, 0⟩ (deployed (fun _ => 3) 0)
  Call.exec (tokenHooks halfToken) (.claim (deriveLockId (deriveBinding tokenTerms) 1) 5)
    ⟨2, 0, 300000⟩ opened

theorem tokenRun_steps {w : TokenVault} (run : tokenRun = .ok w) :
    Relation.ReflTransGen (TokenStep fun _ => True) (deployed (fun _ => 3) 0) w := by
  simp only [tokenRun, bind_eq_ok] at run
  obtain ⟨opened, first, second⟩ := run
  exact (Relation.ReflTransGen.single (tokenStep_of_exec (by decide) halfToken_truthful first)).tail
    (tokenStep_of_exec (by decide) halfToken_truthful second)

/-- A claim of which half was delivered: the other half is a credit, and the balance covers it. -/
theorem token_escrow_solvent_half : ∃ w, tokenRun = .ok w ∧ w.credit 2 7 = 50 ∧ w.assets 7 = 53 ∧
    w.liabilities (tokenPools fun _ => True) ⟨7, trivial⟩ ≤ w.assets 7 := by
  have facts : (tokenRun.toOption.map fun w => (w.credit 2 7, w.assets 7)) = some (50, 53) := by
    decide +kernel
  obtain ⟨w, found, values⟩ := Option.map_eq_some_iff.mp facts
  obtain ⟨credit, balance⟩ := Prod.mk.inj values
  have run := eq_ok_of_toOption found
  exact ⟨w, run, credit, balance,
    token_escrow_solvent _ (fun _ => 3) 0 w (tokenRun_steps run) 7 trivial⟩

end Example

end DomProtocol.ConditionLock
