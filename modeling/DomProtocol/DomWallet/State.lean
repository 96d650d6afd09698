import DomProtocol.Chain
import DomProtocol.Lib.Loops

/-! # The wallet's state (`dom-wallet`)

An **`OwnedOutput`** is an output the wallet can spend; the outputs are kept in an **`OutputIndex`**
by commitment. A **`PendingTx`** is a transaction waiting to be confirmed, or a slate the wallet has
answered. Both are part of the **`WalletState`** that is encrypted to disk; a **`Wallet`** is such a
state with the session that unlocks it.

A function that iterates over a hash map takes the order as an argument (**`IterOrder`**). Key
derivation, the transaction builder and the slate decoder are the class **`WalletBackend`**. Heights
are natural numbers: the wallet only compares them. -/

namespace DomProtocol.DomWallet

/-! ## Types -/

/-- The network a wallet belongs to. -/
inductive Network where
  | mainnet
  | testnet
  | regtest
  deriving DecidableEq

/-- Blocks a coinbase output has to wait. -/
def Network.coinbaseMaturity : Network → Nat
  | .mainnet | .testnet => DomProtocol.coinbaseMaturity.toNat
  | .regtest => regtestCoinbaseMaturity.toNat

/-- Errors of wallet operations. -/
inductive WalletError where
  | insufficientFunds («have» need : UInt64)
  | outputNotFound (message : String)
  | io (message : String)
  | locked
  | dom (error : DomError)
  | tx (message : String)
  | crypto (message : String)

/-- An output the wallet owns. -/
structure OwnedOutput where
  commitment : Octets 33
  value : UInt64
  blinding : Octets 32
  blockHeight : Nat
  blockHash : Option Hash256
  isCoinbase : Bool
  spent : Bool
  reservedForTx : Option Hash256
  deriving DecidableEq

/-- Change a spend returns to the wallet once it is confirmed; its blinding factor is random. -/
structure PendingChange where
  commitment : Octets 33
  value : UInt64
  blinding : Octets 32
  deriving DecidableEq

/-- A transaction or an answered slate waiting for confirmation. -/
structure PendingTx where
  txHash : Hash256
  inputs : List (Octets 33)
  txBytes : Bytes
  change : Option PendingChange
  receiveSlate : Option Bytes
  receiveSlateSecrets : Option (Octets 32)
  deriving DecidableEq

/-- What the wallet knows about a receive request. -/
inductive ReceiveRequestStatus where
  | pending
  | detected (blockHeight : Nat) (isCoinbase isMature : Bool)
  deriving DecidableEq

/-- A request for an exact amount under a derived blinding factor. -/
structure ReceiveRequest where
  index : UInt32
  amount : UInt64
  commitment : Octets 33
  status : ReceiveRequestStatus
  deriving DecidableEq

/-- Seed and account of a deterministic wallet; a legacy wallet has no seed. -/
structure WalletKeychainState where
  seedBytes : Option (Octets 64)
  account : UInt32
  deriving DecidableEq

/-- The outputs of a wallet by commitment. -/
abbrev OutputIndex := Table (Octets 33) OwnedOutput

/-- The state that is saved. -/
structure WalletState where
  network : Network
  chainId : Hash256
  outputs : OutputIndex
  pendingTxs : Table Hash256 PendingTx
  receiveRequests : List ReceiveRequest
  keychain : WalletKeychainState
  deriving DecidableEq

/-- **A wallet in memory**: the state, and the password while the wallet is unlocked. -/
structure Wallet extends WalletState where
  session : Option String
  deriving DecidableEq

/-- **The iteration order of a hash map**: some arrangement of its elements. -/
structure IterOrder (α : Type) where
  arrange : List α → List α
  perm : ∀ items, (arrange items).Perm items

/-- Elements in the order they are given. -/
def IterOrder.asListed {α : Type} : IterOrder α := ⟨id, fun _ => .refl _⟩

theorem IterOrder.mem_arrange {α : Type} (order : IterOrder α) {items : List α} {a : α} :
    a ∈ order.arrange items ↔ a ∈ items := (order.perm items).mem_iff

/-- Hexadecimal form of a commitment. -/
def commitmentHex (commitment : Octets 33) : String := hexNat 66 commitment.toNat

/-! ## Outputs -/

namespace OwnedOutput

/-- A new unspent output. -/
def new (commitment : Octets 33) (value : UInt64) (blinding : Octets 32) (blockHeight : Nat)
    (isCoinbase : Bool) (blockHash : Option Hash256) : OwnedOutput where
  commitment := commitment
  value := value
  blinding := blinding
  blockHeight := blockHeight
  blockHash := blockHash
  isCoinbase := isCoinbase
  spent := false
  reservedForTx := none

/-- Whether a coinbase output has waited long enough. -/
def isMatureFor (output : OwnedOutput) (currentHeight maturity : Nat) : Bool :=
  !output.isCoinbase || decide (currentHeight - output.blockHeight ≥ maturity)

/-- Whether the output can be spent. -/
def isSpendableFor (output : OwnedOutput) (currentHeight maturity : Nat) : Bool :=
  !output.spent && output.reservedForTx.isNone && output.isMatureFor currentHeight maturity

end OwnedOutput

namespace OutputIndex

variable {outputs : OutputIndex} {amountNeeded : UInt64} {selected : List OwnedOutput}
  {order : IterOrder OwnedOutput} {currentHeight maturity : Nat}

/-- The error of an output that is not in the index. -/
def missing (commitment : Octets 33) : WalletError :=
  let hex := commitmentHex commitment
  .outputNotFound s!"commitment \"{hex}\""

/-- Change the output with a commitment. -/
def change (f : OwnedOutput → OwnedOutput) (commitment : Octets 33) (outputs : OutputIndex) :
    Except WalletError OutputIndex :=
  match outputs[commitment]? with
  | some output => .ok (outputs.insert commitment (f output))
  | none => .error (missing commitment)

/-- Mark an output as spent. -/
def markSpent : Octets 33 → OutputIndex → Except WalletError OutputIndex :=
  change fun output => { output with spent := true }

/-- Reserve an output for a pending transaction. -/
def reserve (commitment : Octets 33) (txHash : Hash256) :
    OutputIndex → Except WalletError OutputIndex :=
  change (fun output => { output with reservedForTx := some txHash }) commitment

/-- Release the reservation of an output. -/
def releaseReservation : Octets 33 → OutputIndex → Except WalletError OutputIndex :=
  change fun output => { output with reservedForTx := none }

/-- Changing an output that is there. -/
theorem change_of_mem {f : OwnedOutput → OwnedOutput} {commitment : Octets 33}
    (present : outputs[commitment]? ≠ none) :
    change f commitment outputs = .ok (Table.updateAt f outputs commitment) := by
  unfold change Table.updateAt
  cases entry : outputs[commitment]? with
  | none => exact absurd entry present
  | some output => rfl

/-- Take outputs, largest first, until their sum is enough. -/
def takeUntil (amountNeeded : UInt64) : List OwnedOutput → List OwnedOutput → UInt64 →
    Except WalletError (List OwnedOutput × UInt64)
  | [], selected, sum => .ok (selected, sum)
  | output :: outputs, selected, sum =>
    if sum ≥ amountNeeded then .ok (selected, sum)
    else do
      let sum ← okOr (.crypto "coin selection sum overflow") (checkedAdd sum output.value)
      takeUntil amountNeeded outputs (selected ++ [output]) sum

/-- **Coin selection**: spendable outputs, largest first. -/
def selectForSpendWithMaturity (order : IterOrder OwnedOutput) (outputs : OutputIndex)
    (amountNeeded : UInt64) (currentHeight maturity : Nat) :
    Except WalletError (List OwnedOutput) := do
  let all := order.arrange (outputs.toList.map Prod.snd)
  let spendable := all.filter (·.isSpendableFor currentHeight maturity)
  let sorted := spendable.mergeSort fun a b => b.value ≤ a.value
  let (selected, sum) ← takeUntil amountNeeded sorted [] 0
  rejectIf (sum < amountNeeded) (.insufficientFunds sum amountNeeded)
  pure selected

end OutputIndex

/-! ## Parameters -/

open Primitives

variable [Primitives]

/-- The octets of the commitment to a value. -/
def commitBytes (value : UInt64) (blinding : Octets 32) : Octets 33 :=
  compress (value.toNat • hPoint + blinding.toNat • generator)

/-- The fields of a slate a recipient's wallet reads. -/
structure Slate where
  chainId : Hash256
  amount : UInt64
  recipientOutput : Option (Octets 33)

/-- **Parameters**: hierarchical key derivation, the transaction builder and the slate decoder. -/
class WalletBackend where
  coinbaseBlinding : Octets 64 → Nat → Except WalletError (Octets 32)
  spendOutputBlinding : Octets 64 → UInt32 → UInt32 → Except WalletError (Octets 32)
  buildTransaction : Hash256 → List OwnedOutput → List (UInt64 × Octets 32) → UInt64 → Octets 32 →
    Except WalletError Transaction
  slateFromBytes : Bytes → Except String Slate

end DomProtocol.DomWallet
