import DomProtocol.Validation
import DomProtocol.Store

/-! # Memory pool (`dom-mempool`)

The pool of unconfirmed transactions: the entries by transaction hash, an index from spent
commitments to the entry that spends them, an index of the entries by fee rate, and the total
weight. Admission checks a transaction, evicts cheaper entries until it fits
(**`Mempool.makeRoom`**) and inserts it; confirmation of a block removes the entries whose inputs it
spent; a reorganization offers transactions again. Weights, fees and fee rates are bounded far below
their machine types and are natural numbers here. -/

namespace DomProtocol

section Pool

variable [Primitives]

/-- Minimum fee per weight unit for relay and admission. -/
def minRelayFeeRate : Nat := 1000

/-- A pooled transaction. -/
structure MempoolEntry where
  tx : Transaction
  txHash : Hash256
  fee : Nat
  weight : Nat
  feeRate : Nat
  receivedAt : UInt64
  deriving DecidableEq

/-- Check the fee of a transaction of some weight against the relay minimum. -/
def validateMinimumFee (fee weight : Nat) : Result Unit :=
  rejectIf (fee < weight * minRelayFeeRate) (.policyRejected
    s!"fee {fee} < minimum relay fee {weight * minRelayFeeRate}")

/-- The entry of a transaction. -/
def MempoolEntry.new (tx : Transaction) (txHash : Hash256) (receivedAt : UInt64) :
    Result MempoolEntry := do
  let fee ← tx.totalFee
  let weight ← tx.weightChecked
  validateMinimumFee fee.toNat weight
  pure ⟨tx, txHash, fee.toNat, weight, fee.toNat / weight, receivedAt⟩

/-- A key of the fee index, ordered by fee rate and then by hash. -/
@[ext] structure FeeKey where
  feeRate : Nat
  txHash : Hash256
  deriving DecidableEq

instance : Ord FeeKey := ⟨compareLex (compareOn FeeKey.feeRate) (compareOn FeeKey.txHash)⟩

instance : Std.TransOrd FeeKey :=
  inferInstanceAs (Std.TransCmp (compareLex (compareOn FeeKey.feeRate) (compareOn FeeKey.txHash)))

instance : Std.LawfulEqOrd FeeKey := lawfulEqOrd_of_compare fun key key' => by
  change compareLex _ _ key key' = .eq ↔ key = key'
  simp [compareLex, compareOn, FeeKey.ext_iff]

/-- **The memory pool.** -/
structure Mempool where
  entries : Table Hash256 MempoolEntry
  inputIndex : Table (Octets 33) Hash256
  feeIndex : Table FeeKey Unit
  totalWeight : Nat
  maxWeight : Nat

namespace Mempool

/-- The empty pool. -/
def new : Mempool := ⟨∅, ∅, ∅, 0, maxBlockWeight * 10⟩

/-! ## Primitive changes -/

/-- Enter a transaction into all indices. -/
def insertEntry (pool : Mempool) (entry : MempoolEntry) : Mempool where
  entries := pool.entries.insert entry.txHash entry
  inputIndex := Table.claimAll entry.txHash entry.tx.inputKeys pool.inputIndex
  feeIndex := pool.feeIndex.insert ⟨entry.feeRate, entry.txHash⟩ ()
  totalWeight := pool.totalWeight + entry.weight
  maxWeight := pool.maxWeight

/-- Remove a transaction from all indices. -/
def removeTx (pool : Mempool) (txHash : Hash256) : Mempool :=
  match pool.entries[txHash]? with
  | none => pool
  | some entry =>
    { entries := pool.entries.erase txHash
      inputIndex := Table.releaseAll txHash entry.tx.inputKeys pool.inputIndex
      feeIndex := pool.feeIndex.erase ⟨entry.feeRate, txHash⟩
      totalWeight := pool.totalWeight - entry.weight
      maxWeight := pool.maxWeight }

/-! ## Admission -/

/-- The first pooled transaction that spends an input of the given one. -/
def firstConflictingTx (pool : Mempool) (tx : Transaction) (txHash : Hash256) : Option Hash256 :=
  tx.inputKeys.findSome? fun key => pool.inputIndex[key]?.filter (· ≠ txHash)

/-- Evict the entry with the lowest fee rate, if it is below the given one. -/
def evictLowestFee (pool : Mempool) (minFeeRate : Nat) : Mempool × Result Unit :=
  match pool.feeIndex.minKey? with
  | none => (pool, .ok ())
  | some lowest =>
    if minFeeRate ≤ lowest.feeRate then
      (pool, .error (.policyRejected "mempool full, fee too low to evict"))
    else (pool.removeTx lowest.txHash, .ok ())

/-- Evict until the incoming entry fits. A round that frees nothing ends the loop, so it takes at
most as many rounds as there is weight in the pool. -/
def makeRoom (entry : MempoolEntry) : Nat → Mempool → Mempool × Result Unit
  | 0, pool => (pool, .error (.internal "eviction rounds exceed the pool weight"))
  | rounds + 1, pool =>
    if pool.totalWeight + entry.weight ≤ pool.maxWeight then (pool, .ok ())
    else
      match pool.evictLowestFee entry.feeRate with
      | (evicted, .error e) => (evicted, .error e)
      | (evicted, .ok ()) =>
        if pool.totalWeight ≤ evicted.totalWeight then
          (evicted, .error (.policyRejected
            "mempool full, unable to free enough space for incoming tx"))
        else makeRoom entry rounds evicted

/-- Admit a transaction that has been checked. -/
def acceptValidatedTx (pool : Mempool) (tx : Transaction) (txHash : Hash256) (now : UInt64) :
    Mempool × Result Unit :=
  if pool.entries.contains txHash then
    (pool, .error (.policyRejected "transaction already in mempool"))
  else
    match pool.firstConflictingTx tx txHash with
    | some conflict => (pool, .error (.policyRejected
        s!"input already reserved by mempool tx {conflict.toHex}"))
    | none =>
      match MempoolEntry.new tx txHash now with
      | .error e => (pool, .error e)
      | .ok entry =>
        if pool.maxWeight < entry.weight then
          (pool, .error (.policyRejected
            s!"tx weight {entry.weight} exceeds mempool max_weight {pool.maxWeight}"))
        else
          match pool.makeRoom entry (pool.totalWeight + 1) with
          | (pool, .error e) => (pool, .error e)
          | (pool, .ok ()) => (pool.insertEntry entry, .ok ())

/-- Admit a transaction after checking its structure. -/
def acceptTx (pool : Mempool) (tx : Transaction) (txHash : Hash256) (now : UInt64) :
    Mempool × Result Unit :=
  match validateTransactionStructure tx with
  | .error e => (pool, .error e)
  | .ok () => pool.acceptValidatedTx tx txHash now

/-- The checks that need no cryptography. -/
def precheckCheapAdmissionGates (pool : Mempool) (tx : Transaction) (txHash : Hash256) :
    Result Unit := do
  rejectIf (pool.entries.contains txHash = true) (.policyRejected "transaction already in mempool")
  let fee ← tx.totalFee
  let weight ← tx.weightChecked
  validateMinimumFee fee.toNat weight
  rejectIf (pool.maxWeight < weight) (.policyRejected
    s!"tx weight {weight} exceeds mempool max_weight {pool.maxWeight}")

/-- The canonical chain as admission sees it. -/
structure ChainView where
  currentHeight : UInt64
  chainId : Hash256
  coinbaseMaturity : UInt64
  lookupUtxo : Octets 33 → Result (Option UtxoEntry)

/-- Check that every input exists in the canonical chain and is mature. -/
def validateTxAgainstChainView (tx : Transaction) (view : ChainView) : Result Unit :=
  forEach (fun key => do
    let found ← view.lookupUtxo key
    let entry ← okOr (.policyRejected
      s!"input commitment not found in canonical UTXO set: {hexNat 66 key.toNat}") found
    rejectIf (entry.isCoinbase = true ∧
        entry.isMatureFor view.currentHeight view.coinbaseMaturity = false) (.temporarilyInvalid
      (s!"immature coinbase spend at height {view.currentHeight} " ++
        s!"(created at {entry.blockHeight}, maturity {view.coinbaseMaturity})"))) tx.inputKeys

/-- Admit a transaction after validating it against the canonical chain. -/
def acceptTxWithChainView (pool : Mempool) (view : ChainView) (tx : Transaction) (txHash : Hash256)
    (now : UInt64) : Mempool × Result Unit :=
  match (do
    pool.precheckCheapAdmissionGates tx txHash
    validateTransaction tx ⟨view.currentHeight, view.chainId, now⟩
    validateTxAgainstChainView tx view : Result Unit) with
  | .error e => (pool, .error e)
  | .ok () => pool.acceptValidatedTx tx txHash now

/-! ## Batches -/

/-- A transaction offered to the pool: the transaction, its hash and its time. -/
abbrev Candidate := Transaction × Hash256 × UInt64

/-- Offer candidates one after another, in the order of their hashes. -/
def reinject (accept : Mempool → Candidate → Mempool × Result Unit) (pool : Mempool)
    (txs : List Candidate) : Mempool × List (Hash256 × Result Unit) :=
  (txs.insertionSort fun a b => a.2.1 ≤ b.2.1).foldl (fun (pool, outcomes) candidate =>
    let (pool, result) := accept pool candidate
    (pool, outcomes ++ [(candidate.2.1, result)])) (pool, [])

/-- Offer a batch again, checking structure alone. -/
def reinjectBatch : Mempool → List Candidate → Mempool × List (Hash256 × Result Unit) :=
  reinject fun pool (tx, txHash, now) => pool.acceptTx tx txHash now

/-- Offer a batch again, validating against the canonical chain. -/
def reinjectBatchWithChainView (view : ChainView) :
    Mempool → List Candidate → Mempool × List (Hash256 × Result Unit) :=
  reinject fun pool (tx, txHash, now) => pool.acceptTxWithChainView view tx txHash now

/-- Remove the entries that spend a commitment a block spent. -/
def removeConfirmed (pool : Mempool) (spent : List (Octets 33)) : Mempool :=
  let hashes := (pool.entries.toList.filter fun entry =>
    entry.2.tx.inputKeys.any (· ∈ spent)).map (·.2.txHash)
  (hashes.insertionSort (· ≤ ·)).foldl removeTx pool

/-! ## Block templates -/

/-- Whether an entry comes before another in a block: higher fee rate, then lower hash. -/
def SelectedBefore (a b : MempoolEntry) : Prop :=
  b.feeRate < a.feeRate ∨ a.feeRate = b.feeRate ∧ a.txHash ≤ b.txHash

instance : DecidableRel SelectedBefore := fun _ _ => inferInstanceAs (Decidable (_ ∨ _))

/-- The entries in block order. -/
def entriesInBlockOrder (pool : Mempool) : List MempoolEntry :=
  (pool.entries.toList.map Prod.snd).insertionSort SelectedBefore

/-- Take the entries that still fit the budget, in order. -/
def takeFitting (maxWeight : Nat) : Nat → List MempoolEntry → List MempoolEntry
  | _, [] => []
  | used, entry :: entries =>
    if entry.weight ≤ maxWeight - used then
      entry :: takeFitting maxWeight (used + entry.weight) entries
    else takeFitting maxWeight used entries

/-- Select entries for a block within a weight budget. -/
def selectForBlock (pool : Mempool) (maxWeight : UInt32) : List MempoolEntry :=
  takeFitting maxWeight.toNat 0 pool.entriesInBlockOrder

end Mempool

/-! ## Operations -/

/-- The operations that change a pool. -/
inductive MempoolOp where
  | acceptTx (tx : Transaction) (txHash : Hash256) (now : UInt64)
  | acceptTxWithChainView (view : Mempool.ChainView) (tx : Transaction) (txHash : Hash256)
      (now : UInt64)
  | removeTx (txHash : Hash256)
  | removeConfirmed (spent : List (Octets 33))
  | reinjectBatch (txs : List Mempool.Candidate)
  | reinjectBatchWithChainView (view : Mempool.ChainView) (txs : List Mempool.Candidate)

namespace Mempool

/-- The pool after an operation, whether it succeeds or not. -/
def step (pool : Mempool) : MempoolOp → Mempool
  | .acceptTx tx txHash now => (pool.acceptTx tx txHash now).1
  | .acceptTxWithChainView view tx txHash now => (pool.acceptTxWithChainView view tx txHash now).1
  | .removeTx txHash => pool.removeTx txHash
  | .removeConfirmed spent => pool.removeConfirmed spent
  | .reinjectBatch txs => (pool.reinjectBatch txs).1
  | .reinjectBatchWithChainView view txs => (reinjectBatchWithChainView view pool txs).1

/-- The pool after a sequence of operations. -/
def run (pool : Mempool) (ops : List MempoolOp) : Mempool := ops.foldl step pool

end Mempool

end Pool

end DomProtocol
