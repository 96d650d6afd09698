import DomProtocol.Lib.Octets
import DomProtocol.Lib.Table

/-! # Condition locks (`contracts`, `ConditionLockCoreV2`)

The asset-agnostic core of the EVM escrow. A lock holds an amount until its beneficiary reveals the
scalar behind an adaptor address (**`claim`**, before the deadline) or anybody sends it back to its
funder (**`refund`**, from the deadline on). A payout is pushed if there is gas for it; what was not
delivered becomes a credit that its owner withdraws later.

**`Hooks`** are the virtual functions through which the two variants move their asset, and **`World
β`** is the storage of a contract with the state `β` of its assets. Payments and settlements are
recorded where value moves and are read by nothing. -/

namespace DomProtocol.ConditionLock

/-! ## The machine underneath -/

/-- An account. -/
abbrev Address := BitVec 160

/-- A 32-byte word. -/
abbrev Bytes32 := BitVec 256

instance : Std.TransOrd Bytes32 := inferInstance

/-- An unsigned 256-bit number. -/
abbrev UInt256 := BitVec 256

/-- Order of the secp256k1 group. -/
def secp256k1N : Nat := 0xFFFFFFFFFFFFFFFFFFFFFFFFFFFFFFFEBAAEDCE6AF48A03BBFD25E8CD0364141

/-- X coordinate of the generator. -/
def secp256k1Gx : Nat := 0x79BE667EF9DCBBAC55A06295CE870B07029BFCDB2DCE28D959F2815B16F81798

/-- The primitives of the EVM and the constants of a deployment. -/
class Evm where
  keccak256 : Bytes → Bytes32
  ecrecover : Bytes32 → UInt8 → Bytes32 → Bytes32 → Address
  scalarAddress : Nat → Address
  ecrecover_generator : ∀ t, 0 < t → t < secp256k1N →
    ecrecover 0 27 (BitVec.ofNat 256 secp256k1Gx) (BitVec.ofNat 256 (t * secp256k1Gx % secp256k1N)) =
      scalarAddress t
  chainId : UInt256
  self : Address

/-- Why a call reverts. -/
inductive Revert where
  | LockExists
  | LockUnknown
  | AlreadySettled
  | BadAmount
  | BadDeadline
  | ZeroAddress
  | NotBeneficiary
  | Expired
  | NotExpired
  | WrongSecret
  | NothingToWithdraw
  | PayoutFailed
  | AssetMismatch
  | ValueMismatch
  | AmountExceedsCredit (credit requested : UInt256)
  | NonCanonicalScalar
  | BadDirection
  | NotAContract
  | InexactTransfer (expected received : UInt256)
  | UnmeasurableAsset
  | SafeERC20FailedOperation (token : Address)
  | ReentrancyGuardReentrantCall
  | Panic
  deriving DecidableEq, Repr

/-! ## Lock terms (`LockBinding`) -/

/-- Canonical settlement terms of one EVM leg. -/
structure LockTerms where
  domChainId : Bytes32
  direction : UInt8
  sessionId : Bytes32
  termsHash : Bytes32
  participantsHash : Bytes32
  asset : Address
  amount : UInt256
  beneficiary : Address
  adaptorAddress : Address
  deadline : UInt64
  deriving DecidableEq, Repr

section Derivation

variable [Evm]

/-- `abi.encode` of static values: one big-endian word each. -/
def abiEncode (words : List Nat) : Bytes := words.flatMap (beBytes 32)

/-- Domain separator for the binding hash. -/
def bindingDomain : Bytes32 := Evm.keccak256 (utf8 "DOM-Interop/ConditionLockV2/binding")

/-- Domain separator for the lock-id hash. -/
def lockIdDomain : Bytes32 := Evm.keccak256 (utf8 "DOM-Interop/ConditionLockV2/lockId")

/-- Version of the encoding. -/
def bindingVersion : Nat := 2

/-- Canonical binding hash of terms for this chain and this contract. -/
def deriveBinding (terms : LockTerms) : Bytes32 :=
  Evm.keccak256 (abiEncode [bindingDomain.toNat, bindingVersion, Evm.chainId.toNat, Evm.self.toNat] ++
    abiEncode [terms.domChainId.toNat, terms.direction.toNat, terms.sessionId.toNat,
      terms.termsHash.toNat] ++
    abiEncode [terms.participantsHash.toNat, terms.asset.toNat, terms.amount.toNat,
      terms.beneficiary.toNat, terms.adaptorAddress.toNat, terms.deadline.toNat])

/-- Canonical lock id for a binding funded by an account. -/
def deriveLockId (binding : Bytes32) (funder : Address) : Bytes32 :=
  Evm.keccak256 (abiEncode [lockIdDomain.toNat, bindingVersion, binding.toNat, funder.toNat])

/-- The address of `t * G`, for a canonical scalar. -/
def addressOfScalarTimesG (t : UInt256) : Except Revert Address := do
  rejectIf (t = 0 ∨ t.toNat ≥ secp256k1N) .NonCanonicalScalar
  pure (Evm.ecrecover 0 27 (BitVec.ofNat 256 secp256k1Gx)
    (BitVec.ofNat 256 (t.toNat * secp256k1Gx % secp256k1N)))

theorem addressOfScalarTimesG_eq_ok {t : UInt256} {address : Address}
    (h : addressOfScalarTimesG t = .ok address) :
    0 < t.toNat ∧ t.toNat < secp256k1N ∧ address = Evm.scalarAddress t.toNat := by
  simp only [addressOfScalarTimesG, bind_eq_ok, rejectIf_eq_ok, pure_eq_ok, not_or, Nat.not_le] at h
  obtain ⟨_, ⟨nonzero, below⟩, rfl⟩ := h
  have positive : 0 < t.toNat := by
    rw [Nat.pos_iff_ne_zero]
    exact fun zero => nonzero (BitVec.eq_of_toNat_eq zero)
  exact ⟨positive, below, Evm.ecrecover_generator t.toNat positive below⟩

end Derivation

/-! ## Storage -/

/-- Stored state of one lock. -/
structure Lock where
  funder : Address
  beneficiary : Address
  adaptorAddress : Address
  asset : Address
  amount : UInt256
  deadline : UInt64
  binding : Bytes32
  settled : Bool
  deriving DecidableEq, Repr

/-- An unknown lock reads back as an all-zero struct. -/
def Lock.zero : Lock := ⟨0, 0, 0, 0, 0, 0, 0, false⟩

/-- Whose credit, in which asset. -/
@[ext] structure CreditKey where
  account : Address
  asset : Address
  deriving DecidableEq, Repr

instance : Ord CreditKey := ⟨compareLex (compareOn CreditKey.account) (compareOn CreditKey.asset)⟩

instance : Std.TransOrd CreditKey :=
  inferInstanceAs (Std.TransCmp (compareLex (compareOn CreditKey.account) (compareOn CreditKey.asset)))

instance : Std.LawfulEqOrd CreditKey := lawfulEqOrd_of_compare fun key key' => by
  change compareLex _ _ key key' = .eq ↔ key = key'
  simp [compareLex, compareOn, CreditKey.ext_iff]

/-- Events. -/
inductive Event where
  | LockOpened (lockId binding : Bytes32) (funder beneficiary asset : Address) (amount : UInt256)
      (adaptorAddress : Address) (deadline : UInt64)
  | Claimed (lockId binding : Bytes32) (beneficiary : Address) (t : UInt256)
  | Refunded (lockId binding : Bytes32) (funder : Address) (amount : UInt256)
  | PayoutDeferred (target asset : Address) (amount : UInt256)
  | Withdrawal (account asset target : Address) (amount : UInt256)
  deriving DecidableEq, Repr

/-- What a settlement released: to whom, against which secret, when, and how. -/
structure Settlement where
  lockId : Bytes32
  target : Address
  asset : Address
  secret : Option UInt256
  timestamp : Nat
  delivered : UInt256
  credited : UInt256
  deriving DecidableEq, Repr

/-- A transfer out of custody that went through. -/
structure Payment where
  target : Address
  asset : Address
  amount : UInt256
  deriving DecidableEq, Repr

/-- **The world of a contract**: its storage, the block time, the history of its settlements, what it
has paid and the state of its assets. -/
structure World (β : Type) where
  locks : Table Bytes32 Lock
  pendingWithdrawals : Table CreditKey UInt256
  entered : Bool
  events : List Event
  settlements : List Settlement
  payments : List Payment
  timestamp : Nat
  assets : β

/-- A contract after its deployment, possibly with assets at its address. -/
def deployed {β : Type} (assets : β) (timestamp : Nat) : World β :=
  ⟨∅, ∅, false, [], [], [], timestamp, assets⟩

/-- The message of a call. `gasleft` is the gas left when a payout is attempted. -/
structure Msg where
  sender : Address
  value : UInt256
  gasleft : Nat

/-- The virtual functions of the core. A push or a pull returns what provably left custody. -/
structure Hooks (β : Type) where
  requireSupportedAsset : Address → Except Revert Unit
  takeCustody : Msg → Address → UInt256 → World β → Except Revert (World β)
  payoutGasFloor : Nat
  tryPushPayout : Address → Address → UInt256 → World β → UInt256 × World β
  pullTransfer : Address → Address → UInt256 → World β → UInt256 × World β

namespace World

variable {β : Type} (w : World β)

/-- Read a lock. -/
def lockOf (lockId : Bytes32) : Lock := w.locks[lockId]?.getD Lock.zero

/-- Read a credit. -/
def credit (account asset : Address) : UInt256 := w.pendingWithdrawals[CreditKey.mk account asset]?.getD 0

/-- Set a credit. -/
def setCredit (account asset : Address) (amount : UInt256) : World β :=
  { w with pendingWithdrawals := w.pendingWithdrawals.insert ⟨account, asset⟩ amount }

/-- Emit an event. -/
def emit (event : Event) : World β := { w with events := w.events ++ [event] }

/-- Record a transfer. -/
def pay (target asset : Address) (amount : UInt256) : World β :=
  { w with payments := w.payments ++ [⟨target, asset, amount⟩] }

end World

/-! ## Entry points -/

section Core

variable [Evm] {β : Type} (H : Hooks β)

/-- Addition that stops at the largest number. -/
def addSaturating (a b : UInt256) : UInt256 :=
  if a + b < a then BitVec.allOnes 256 else a + b

/-- Run the body of an entry point under the re-entrancy guard. -/
def nonReentrant (body : World β → Except Revert (World β)) (w : World β) :
    Except Revert (World β) := do
  rejectIf (w.entered = true) .ReentrancyGuardReentrantCall
  let w ← body { w with entered := true }
  pure { w with entered := false }

/-- Push within the gas floor. -/
def pushIfGas (gasleft : Nat) (target asset : Address) (amount : UInt256) (w : World β) :
    UInt256 × World β :=
  if gasleft ≥ H.payoutGasFloor then H.tryPushPayout target asset amount w else (0, w)

/-- Optimistic push; the shortfall becomes a credit. Returns what was delivered and what was
credited. -/
def payout (gasleft : Nat) (target asset : Address) (amount : UInt256) (w : World β) :
    Except Revert ((UInt256 × UInt256) × World β) :=
  let (delivered, w) := pushIfGas H gasleft target asset amount w
  -- checked subtraction
  if amount < delivered then .error .Panic
  else
    let shortfall := amount - delivered
    if shortfall = 0 then .ok ((delivered, shortfall), w)
    else .ok ((delivered, shortfall), (w.setCredit target asset
      (addSaturating (w.credit target asset) shortfall)).emit (.PayoutDeferred target asset shortfall))

/-- The common end of a claim and a refund: set the terminal flag, emit, pay out. The last step only
extends the history. -/
def settle (gasleft : Nat) (lockId : Bytes32) (lock : Lock) (target : Address) (secret : Option UInt256)
    (event : Event) (w : World β) : Except Revert (World β) := do
  let settled := { w with locks := w.locks.insert lockId { lock with settled := true } }
  let ((delivered, credited), paid) ←
    payout H gasleft target lock.asset lock.amount (settled.emit event)
  pure { paid with settlements := paid.settlements ++
    [⟨lockId, target, lock.asset, secret, w.timestamp, delivered, credited⟩] }

/-- Open a lock for terms, funded by the sender. -/
def openLock (msg : Msg) (terms : LockTerms) : World β → Except Revert (World β) :=
  nonReentrant fun w => do
    rejectIf (terms.direction > 1) .BadDirection
    rejectIf (terms.beneficiary = 0 ∨ terms.adaptorAddress = 0) .ZeroAddress
    rejectIf (terms.amount = 0) .BadAmount
    rejectIf (terms.deadline.toNat ≤ w.timestamp) .BadDeadline
    let binding := deriveBinding terms
    let lockId := deriveLockId binding msg.sender
    rejectIf ((w.lockOf lockId).funder ≠ 0) .LockExists
    let opened := { w with locks := w.locks.insert lockId ⟨msg.sender, terms.beneficiary,
      terms.adaptorAddress, terms.asset, terms.amount, terms.deadline, binding, false⟩ }
    H.takeCustody msg terms.asset terms.amount (opened.emit (.LockOpened lockId binding msg.sender
      terms.beneficiary terms.asset terms.amount terms.adaptorAddress terms.deadline))

/-- Claim a lock by revealing the secret. -/
def claim (msg : Msg) (lockId : Bytes32) (t : UInt256) : World β → Except Revert (World β) :=
  nonReentrant fun w => do
    let lock := w.lockOf lockId
    rejectIf (lock.funder = 0) .LockUnknown
    rejectIf (lock.settled = true) .AlreadySettled
    rejectIf (msg.sender ≠ lock.beneficiary) .NotBeneficiary
    rejectIf (w.timestamp ≥ lock.deadline.toNat) .Expired
    let recovered ← addressOfScalarTimesG t
    rejectIf (recovered = 0 ∨ recovered ≠ lock.adaptorAddress) .WrongSecret
    settle H msg.gasleft lockId lock lock.beneficiary (some t)
      (.Claimed lockId lock.binding lock.beneficiary t) w

/-- Refund the funder once the deadline has passed. -/
def refund (msg : Msg) (lockId : Bytes32) : World β → Except Revert (World β) :=
  nonReentrant fun w => do
    let lock := w.lockOf lockId
    rejectIf (lock.funder = 0) .LockUnknown
    rejectIf (lock.settled = true) .AlreadySettled
    rejectIf (w.timestamp < lock.deadline.toNat) .NotExpired
    settle H msg.gasleft lockId lock lock.funder none
      (.Refunded lockId lock.binding lock.funder lock.amount) w

/-- Withdraw from a credit; no requested amount means the whole credit. -/
def withdrawCredit (msg : Msg) (asset target : Address) (requested : Option UInt256) (w : World β) :
    Except Revert (World β) := do
  H.requireSupportedAsset asset
  let credit := w.credit msg.sender asset
  rejectIf (credit = 0) .NothingToWithdraw
  let amount := requested.getD credit
  rejectIf (amount > credit) (.AmountExceedsCredit credit amount)
  let (delivered, paid) :=
    H.pullTransfer target asset amount (w.setCredit msg.sender asset (credit - amount))
  rejectIf (delivered ≠ amount) .PayoutFailed
  pure (paid.emit (.Withdrawal msg.sender asset target amount))

/-- Withdraw the whole credit to the sender. -/
def withdraw (msg : Msg) (asset : Address) : World β → Except Revert (World β) :=
  nonReentrant (withdrawCredit H msg asset msg.sender none)

/-- Withdraw the whole credit to a chosen address. -/
def withdrawTo (msg : Msg) (asset target : Address) : World β → Except Revert (World β) :=
  nonReentrant fun w => do
    rejectIf (target = 0) .ZeroAddress
    withdrawCredit H msg asset target none w

/-- Withdraw part of a credit. -/
def withdrawAmount (msg : Msg) (asset target : Address) (amount : UInt256) :
    World β → Except Revert (World β) :=
  nonReentrant fun w => do
    rejectIf (target = 0) .ZeroAddress
    rejectIf (amount = 0) .BadAmount
    withdrawCredit H msg asset target (some amount) w

/-- The entry points that change state. -/
inductive Call where
  | «open» (terms : LockTerms)
  | claim (lockId : Bytes32) (t : UInt256)
  | refund (lockId : Bytes32)
  | withdraw (asset : Address)
  | withdrawTo (asset target : Address)
  | withdrawAmount (asset target : Address) (amount : UInt256)

/-- Run an entry point. Only `open` is payable. -/
def Call.exec (call : Call) (msg : Msg) (w : World β) : Except Revert (World β) :=
  match call with
  | .open terms => openLock H msg terms w
  | .claim lockId t => do
    rejectIf (msg.value ≠ 0) .Panic
    ConditionLock.claim H msg lockId t w
  | .refund lockId => do
    rejectIf (msg.value ≠ 0) .Panic
    ConditionLock.refund H msg lockId w
  | .withdraw asset => do
    rejectIf (msg.value ≠ 0) .Panic
    ConditionLock.withdraw H msg asset w
  | .withdrawTo asset target => do
    rejectIf (msg.value ≠ 0) .Panic
    ConditionLock.withdrawTo H msg asset target w
  | .withdrawAmount asset target amount => do
    rejectIf (msg.value ≠ 0) .Panic
    ConditionLock.withdrawAmount H msg asset target amount w

end Core

/-- An EVM with a hash that keeps the last word and a recovery that keeps the low bytes of `s`. -/
@[reducible] def plainEvm : Evm where
  keccak256 bytes := BitVec.ofNat 256 (beNat bytes)
  ecrecover _ _ _ s := s.setWidth 160
  scalarAddress t := (BitVec.ofNat 256 (t * secp256k1Gx % secp256k1N)).setWidth 160
  ecrecover_generator _ _ _ := rfl
  chainId := 1
  self := 99

end DomProtocol.ConditionLock
