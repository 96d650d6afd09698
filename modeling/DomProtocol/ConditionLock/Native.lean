import DomProtocol.Lib.Reentry
import DomProtocol.ConditionLock.Accounting

/-! # The native escrow (`contracts`, `ConditionLockV2`)

The variant that moves ether. A value-bearing call moves the balance if and only if it succeeds, and
the called account may run any code: send ether by force, call the escrow again, fail (`Reach`). A
run is a sequence of transactions at any depth with time passing in between; `native_escrow_safe`
holds in every run. -/

namespace DomProtocol.ConditionLock

/-- The world of the native escrow; its asset is the balance of the contract. -/
abbrev Vault := World Nat

/-- What a called account does: fail, or run to its end and leave a world behind. -/
abbrev Callee := Vault → Option Vault

section Native

variable [Evm]

variable {w w' : Vault} {depth : Nat} {callee : Callee} {target : Address} {amount : UInt256}

/-- A value-bearing call. The escrow cannot pay itself: it has no function that receives ether. -/
def sendValue (callee : Callee) (target : Address) (amount : UInt256) (w : Vault) : Bool × Vault :=
  if target = Evm.self ∨ w.assets < amount.toNat then (false, w)
  else
    match callee ({ w with assets := w.assets - amount.toNat }.pay target 0 amount) with
    | none => (false, w)
    | some w' => (true, w')

/-- A push or a pull: the status of the call decides what was delivered. -/
def deliverValue (callee : Callee) (target : Address) (amount : UInt256) (w : Vault) :
    UInt256 × Vault :=
  let (ok, w) := sendValue callee target amount w
  (if ok then amount else 0, w)

/-- The native variant only handles `asset == address(0)`. -/
def requireNative (asset : Address) : Except Revert Unit := rejectIf (asset ≠ 0) .AssetMismatch

/-- The hooks of the native escrow, when the account it pays behaves as `callee`. -/
def nativeHooks (callee : Callee) : Hooks Nat where
  requireSupportedAsset := requireNative
  takeCustody msg asset amount w := do
    requireNative asset
    rejectIf (msg.value ≠ amount) .ValueMismatch
    pure w
  payoutGasFloor := 96000
  tryPushPayout target _ amount w := deliverValue callee target amount w
  pullTransfer target _ amount w := deliverValue callee target amount w

/-! ## Runs -/

/-- Ether arrives without a call, by force. -/
def ForcedEther (w w' : Vault) : Prop := ∃ amount, w' = { w with assets := w.assets + amount }

/-- A completed call of the escrow: its value is credited first, and the account it pays does what
`R` allows. -/
def NativeCall (R : Vault → Vault → Prop) (w w' : Vault) : Prop :=
  ∃ (call : Call) (msg : Msg) (callee : Callee), msg.sender ≠ 0 ∧
    (∀ v v', callee v = some v' → R v v') ∧
    call.exec (nativeHooks callee) msg { w with assets := w.assets + msg.value.toNat } = .ok w'

/-- A step of a run: time passes, or a transaction runs code that can call the escrow. -/
inductive NativeStep : Vault → Vault → Prop
  | time (w : Vault) (elapsed : Nat) : NativeStep w { w with timestamp := w.timestamp + elapsed }
  | transaction {w w' : Vault} (depth : Nat) (run : Reach ForcedEther NativeCall depth w w') :
      NativeStep w w'

/-- One pool, the balance, covers everything. -/
def nativePools : Pools Nat where
  Pool := Unit
  covers _ _ := true
  custody balance _ := balance

/-! ## Proofs -/

omit [Evm] in
theorem forcedEther_closure (moves : Relation.ReflTransGen ForcedEther w w') :
    ∃ amount, w' = { w with assets := w.assets + amount } := by
  induction moves with
  | refl => exact ⟨0, rfl⟩
  | tail _ move ih =>
    obtain ⟨earlier, rfl⟩ := ih
    obtain ⟨amount, rfl⟩ := move
    exact ⟨earlier + amount, by rw [← Nat.add_assoc]⟩

/-- While the guard is held, unknown code can only add ether. -/
theorem reach_locked
    (reached : Reach ForcedEther NativeCall depth w w') (entered : w.entered = true) :
    ∃ amount, w' = { w with assets := w.assets + amount } := by
  refine forcedEther_closure (Reach.locked (L := fun v => v.entered = true) ?_ ?_ entered reached)
  · rintro v v' locked ⟨amount, rfl⟩
    exact locked
  · rintro depth v v' locked ⟨call, msg, callee, -, -, run⟩
    have unlocked := Call.exec_unlocked run
    rw [locked] at unlocked
    cases unlocked

section

variable (behaves : ∀ v v', callee v = some v' → Reach ForcedEther NativeCall depth v v')
include behaves

/-- What a value-bearing call takes from the balance. -/
theorem sendValue_spec {ok : Bool}
    (h : sendValue callee target amount w = (ok, w')) (entered : w.entered = true) :
    w.SameStorage w' ∧ w.Sent nativePools target 0 (if ok then amount else 0) w' ∧
      w.assets ≤ w'.assets + if ok then amount.toNat else 0 := by
  unfold sendValue at h
  split at h
  · cases h
    exact ⟨rfl, sent_zero rfl, Nat.le_add_right _ _⟩
  · rename_i funded
    rw [not_or, Nat.not_lt] at funded
    split at h
    · cases h
      exact ⟨rfl, sent_zero rfl, Nat.le_add_right _ _⟩
    · rename_i v paid
      cases h
      obtain ⟨added, rfl⟩ := reach_locked (behaves _ _ paid) entered
      refine ⟨rfl, sent_pay w target 0 amount, ?_⟩
      have := funded.2
      simp only [if_true, World.pay]
      omega

/-- What a delivery takes from the balance. -/
theorem deliverValue_spec {delivered : UInt256}
    (h : deliverValue callee target amount w = (delivered, w')) (entered : w.entered = true) :
    w.SameStorage w' ∧ delivered ≤ amount ∧ w.Sent nativePools target 0 delivered w' ∧
      w.assets ≤ w'.assets + delivered.toNat := by
  unfold deliverValue at h
  rcases sent : sendValue callee target amount w with ⟨ok, v⟩
  obtain ⟨same, paid, kept⟩ := sendValue_spec behaves sent entered
  simp only [sent, Prod.mk.injEq] at h
  obtain ⟨rfl, rfl⟩ := h
  refine ⟨same, ?_, paid, ?_⟩
  · cases ok
    · exact BitVec.le_def.mpr (Nat.zero_le _)
    · exact BitVec.le_def.mpr le_rfl
  · cases ok <;> exact kept

theorem nativeHooks_lawful (msg : Msg) :
    (nativeHooks callee).Lawful nativePools msg fun _ => msg.value.toNat where
  take {asset amount w w'} h entered := by
    simp only [nativeHooks, bind_eq_ok, rejectIf_eq_ok, pure_eq_ok, not_not] at h
    obtain ⟨_, -, _, rfl, rfl⟩ := h
    exact ⟨rfl, fun _ => le_rfl⟩
  push h entered := by
    obtain ⟨same, le, paid, kept⟩ := deliverValue_spec behaves h entered
    exact ⟨same, le, paid, fun _ => kept⟩
  pull h entered := by
    obtain ⟨same, -, paid, kept⟩ := deliverValue_spec behaves h entered
    exact ⟨same, paid, fun _ => kept⟩

end

theorem nativeCall_sound (sound : w.Sound nativePools)
    (called : NativeCall (Reach ForcedEther NativeCall depth) w w') : w'.Sound nativePools := by
  obtain ⟨call, msg, callee, sender, behaves, run⟩ := called
  exact Call.exec_sound (nativeHooks_lawful behaves msg) sender run sound rfl fun _ => le_rfl

theorem forcedEther_sound (sound : w.Sound nativePools) (move : ForcedEther w w') :
    w'.Sound nativePools := by
  obtain ⟨amount, rfl⟩ := move
  refine ⟨sound.unlocked, fun i => ?_, sound.recorded.congr rfl rfl,
    sound.booked.congr rfl rfl rfl rfl⟩
  exact (sound.solvent i).trans (Nat.le_add_right w.assets amount)

theorem nativeStep_sound (sound : w.Sound nativePools) (step : NativeStep w w') :
    w'.Sound nativePools := by
  cases step with
  | time elapsed =>
    exact ⟨sound.unlocked, sound.solvent, sound.recorded.congr rfl rfl,
      sound.booked.congr rfl rfl rfl rfl⟩
  | transaction depth run =>
    exact Reach.invariant (P := World.Sound nativePools) forcedEther_sound nativeCall_sound sound run

/-- **The native escrow is safe**: in every run of transactions, whatever the called accounts do, the
balance covers all unsettled locks and all credits. The settlements are in order: one for each settled
lock, to the beneficiary for the secret before the deadline or to the funder after it, and together no
more than the amount of the lock. The books are in order: the ether an account was paid is what the
settlements in its favour delivered and what credit owners withdrew to it, and its credit, with what it
withdrew itself, is at most what the settlements in its favour credited. -/
theorem native_escrow_safe (balance timestamp : Nat) (w : Vault)
    (run : Relation.ReflTransGen NativeStep (deployed balance timestamp) w) :
    w.liabilities nativePools () ≤ w.assets ∧ w.Recorded ∧ w.Booked nativePools := by
  have sound : w.Sound nativePools := by
    induction run with
    | refl => exact deployed_sound _ balance timestamp
    | tail _ step ih => exact nativeStep_sound ih step
  exact ⟨sound.solvent (), sound.recorded, sound.booked⟩

/-- A single call is a transaction. -/
theorem nativeStep_of_exec {call : Call} {msg : Msg} (sender : msg.sender ≠ 0)
    (behaves : ∀ v v', callee v = some v' → Relation.ReflTransGen ForcedEther v v')
    (run : call.exec (nativeHooks callee) msg { w with assets := w.assets + msg.value.toNat } = .ok w') :
    NativeStep w w' :=
  .transaction 1 (.single (.inr ⟨call, msg, callee, sender, behaves, run⟩))

end Native

section Example

attribute [local instance] plainEvm

/-- A lock of 100 wei for account 2 against the scalar 5, until time 10. -/
def sampleTerms : LockTerms :=
  ⟨0, 0, 0, 0, 0, 0, 100, 2, Evm.scalarAddress 5, 10⟩

/-- The id of that lock for a funder. -/
def sampleLock (funder : Address) : Bytes32 := deriveLockId (deriveBinding sampleTerms) funder

/-- A call that pays an account which accepts. -/
def afterCall (w : Vault) (call : Call × Msg) : Except Revert Vault :=
  call.1.exec (nativeHooks some) call.2 { w with assets := w.assets + call.2.value.toNat }

/-- Accounts 1 and 4 open a lock each. Account 2 claims the first with gas for the push and the second without,
and sends 60 wei of its credit to account 3. -/
def sampleCalls : List (Call × Msg) :=
  [(.open sampleTerms, ⟨1, 100, 0⟩), (.open sampleTerms, ⟨4, 100, 0⟩),
    (.claim (sampleLock 1) 5, ⟨2, 0, 100000⟩), (.claim (sampleLock 4) 5, ⟨2, 0, 0⟩),
    (.withdrawAmount 0 3 60, ⟨2, 0, 0⟩)]

theorem nativeSteps_of_calls {w w' : Vault} {calls : List (Call × Msg)}
    (senders : ∀ call ∈ calls, call.2.sender ≠ 0) (run : calls.foldlM afterCall w = .ok w') :
    Relation.ReflTransGen NativeStep w w' := by
  have accepts (v v' : Vault) (h : some v = some v') : Relation.ReflTransGen ForcedEther v v' := by
    cases h
    exact .refl
  induction calls generalizing w with
  | nil =>
    cases run
    exact .refl
  | cons call rest ih =>
    simp only [List.foldlM_cons, bind_eq_ok] at run
    obtain ⟨v, first, run⟩ := run
    obtain ⟨sender, senders⟩ := List.forall_mem_cons.mp senders
    exact .head (nativeStep_of_exec sender accepts first) (ih senders run)

/-- A push, a credit and a withdrawal: the run exists, its payments are the claim's to account 2 and the
withdrawal's to account 3, the rest is the credit of account 2, and the escrow is safe after it. -/
theorem native_escrow_safe_claimed : ∃ w, sampleCalls.foldlM afterCall (deployed 7 0) = .ok w ∧
    w.payments = [⟨2, 0, 100⟩, ⟨3, 0, 60⟩] ∧ w.credit 2 0 = 40 ∧ w.assets = 47 ∧
    w.liabilities nativePools () ≤ w.assets ∧ w.Recorded ∧ w.Booked nativePools := by
  have facts : ((sampleCalls.foldlM afterCall (deployed 7 0)).toOption.map fun w =>
      (w.payments, w.credit 2 0, w.assets)) = some ([⟨2, 0, 100⟩, ⟨3, 0, 60⟩], 40, 47) := by
    decide +kernel
  obtain ⟨w, found, values⟩ := Option.map_eq_some_iff.mp facts
  simp only [Prod.mk.injEq] at values
  have run := eq_ok_of_toOption found
  exact ⟨w, run, values.1, values.2.1, values.2.2,
    native_escrow_safe 7 0 w (nativeSteps_of_calls (by decide) run)⟩

end Example

end DomProtocol.ConditionLock
