import DomProtocol.MempoolInvariant
import DomProtocol.Run

/-! # Block templates from the memory pool (`dom-node/miner`)

A miner fills a block with what `Mempool.selectForBlock` returns. **`Placeable`** is what block
validation and the kernel index demand of the selected transactions together. The pool guards the
inputs only; it yields placeable selections for all budgets exactly when it is also
**`Mempool.Compatible`**: `template_placeable_iff`.

The miner writes **`aggregateBlockKernelOffset`** in the header. It is the one offset that balances
the block exactly when the coinbase commits to reward and fees under the blinding factor of its
excess (`block_balanced_iff`), which the check of the coinbase does not say. -/

namespace DomProtocol

section Templates

variable [Primitives]

/-- The kernel excesses of a transaction, as the kernel index files them. -/
def Transaction.excessKeys (tx : Transaction) : List (Octets 33) :=
  tx.kernels.map (·.excess.bytes)

/-- **Entries that can be placed together in a block** within a weight budget. -/
structure Placeable (entries : List MempoolEntry) (budget : Nat) : Prop where
  inputs : (entries.flatMap (·.tx.inputKeys)).Nodup
  outputs : (entries.flatMap (·.tx.outputKeys)).Nodup
  kernels : (entries.flatMap (·.tx.excessKeys)).Nodup
  cutThrough : ∀ key ∈ entries.flatMap (·.tx.inputKeys), key ∉ entries.flatMap (·.tx.outputKeys)
  weight : (entries.map (·.weight)).sum ≤ budget
  count : entries.length ≤ maxBlockTxs

theorem MempoolEntry.Checked.nodup {entry : MempoolEntry} (checked : entry.Checked) :
    entry.tx.inputKeys.Nodup ∧ entry.tx.outputKeys.Nodup := by
  have hrules := checked.rules
  simp only [validateTransactionStructure, bind_eq_ok, rejectIf_eq_ok, not_not] at hrules
  obtain ⟨-, -, -, -, -, -, -, -, -, -, -, -, -, hinputs, -, houtputs, -⟩ := hrules
  exact ⟨hinputs, houtputs⟩

namespace Mempool

variable {pool : Mempool}

/-! ## Selection -/

theorem takeFitting_sublist (maxWeight used : Nat) (entries : List MempoolEntry) :
    (takeFitting maxWeight used entries).Sublist entries := by
  induction entries generalizing used with
  | nil => exact .slnil
  | cons entry entries ih =>
    unfold takeFitting
    split
    · exact (ih _).cons_cons _
    · exact (ih _).cons _

/-- The selection stays within the budget. -/
theorem sum_takeFitting_le (maxWeight used : Nat) (entries : List MempoolEntry) :
    ((takeFitting maxWeight used entries).map (·.weight)).sum ≤ maxWeight - used := by
  induction entries generalizing used with
  | nil => exact Nat.zero_le _
  | cons entry entries ih =>
    unfold takeFitting
    split
    · have := ih (used + entry.weight)
      rw [List.map_cons, List.sum_cons]
      omega
    · exact ih used

variable {entries : List MempoolEntry}

/-- A budget that covers everything selects everything. -/
theorem takeFitting_eq_self {maxWeight used : Nat}
    (covered : used + (entries.map (·.weight)).sum ≤ maxWeight) :
    takeFitting maxWeight used entries = entries := by
  induction entries generalizing used with
  | nil => rfl
  | cons entry entries ih =>
    rw [List.map_cons, List.sum_cons] at covered
    unfold takeFitting
    rw [if_pos (by omega), ih (by omega)]

theorem entriesInBlockOrder_perm (pool : Mempool) :
    pool.entriesInBlockOrder.Perm (pool.entries.toList.map Prod.snd) :=
  List.perm_insertionSort _ _

theorem mem_entriesInBlockOrder {entry : MempoolEntry} :
    entry ∈ pool.entriesInBlockOrder ↔
      ∃ txHash : Hash256, pool.entries[txHash]? = some entry := by
  rw [pool.entriesInBlockOrder_perm.mem_iff, List.mem_map]
  constructor
  · rintro ⟨⟨txHash, e⟩, hmem, rfl⟩
    exact ⟨txHash, Std.ExtTreeMap.mem_toList_iff_getElem?_eq_some.mp hmem⟩
  · rintro ⟨txHash, hentry⟩
    exact ⟨(txHash, entry), Std.ExtTreeMap.mem_toList_iff_getElem?_eq_some.mpr hentry, rfl⟩

/-- **When nothing repeats in a pool**: within no entry, and between no two entries. -/
theorem nodup_flatMap_entries {α : Type} (f : MempoolEntry → List α) :
    (pool.entriesInBlockOrder.flatMap f).Nodup ↔
      (∀ (txHash : Hash256) entry, pool.entries[txHash]? = some entry →
        (f entry).Nodup) ∧
      ∀ (a b : Hash256) entry entry', pool.entries[a]? = some entry →
        pool.entries[b]? = some entry' → a ≠ b → (f entry).Disjoint (f entry') := by
  rw [List.nodup_flatMap]
  refine and_congr ?_ ?_
  · constructor
    · exact fun h txHash entry hentry => h entry (mem_entriesInBlockOrder.mpr ⟨txHash, hentry⟩)
    · intro h entry hmem
      obtain ⟨txHash, hentry⟩ := mem_entriesInBlockOrder.mp hmem
      exact h txHash entry hentry
  · have hsymm : ∀ {x y}, Function.onFun List.Disjoint f x y → Function.onFun List.Disjoint f y x :=
      fun h => List.Disjoint.symm h
    have hinst : Std.Symm fun x y : Hash256 × MempoolEntry =>
        Function.onFun List.Disjoint f x.2 y.2 := ⟨fun _ _ h => hsymm h⟩
    rw [pool.entriesInBlockOrder_perm.pairwise_iff hsymm, List.pairwise_map]
    constructor
    · intro h a b entry entry' ha hb hne
      exact h.forall (Std.ExtTreeMap.mem_toList_iff_getElem?_eq_some.mpr ha)
        (Std.ExtTreeMap.mem_toList_iff_getElem?_eq_some.mpr hb)
        fun heq => hne (congrArg Prod.fst heq)
    · intro h
      have hkeys := Table.nodup_keys_toList pool.entries
      rw [List.Nodup, List.pairwise_map] at hkeys
      refine hkeys.imp_of_mem fun {x y} hx hy hne => ?_
      exact h x.1 y.1 x.2 y.2 (Std.ExtTreeMap.mem_toList_iff_getElem?_eq_some.mp hx)
        (Std.ExtTreeMap.mem_toList_iff_getElem?_eq_some.mp hy) hne

/-! ## Compatible pools -/

/-- **What the pool does not guard**: kernel excesses and created commitments of different entries
differ, no entry repeats an excess, nothing an entry spends is created by an entry, and there are
not too many entries for a block. -/
structure Compatible (pool : Mempool) : Prop where
  kernel : ∀ (txHash : Hash256) entry, pool.entries[txHash]? = some entry →
    entry.tx.excessKeys.Nodup
  kernels : ∀ (a b : Hash256) entry entry', pool.entries[a]? = some entry →
    pool.entries[b]? = some entry' → a ≠ b → entry.tx.excessKeys.Disjoint entry'.tx.excessKeys
  outputs : ∀ (a b : Hash256) entry entry', pool.entries[a]? = some entry →
    pool.entries[b]? = some entry' → a ≠ b → entry.tx.outputKeys.Disjoint entry'.tx.outputKeys
  cutThrough : ∀ (a b : Hash256) entry entry', pool.entries[a]? = some entry →
    pool.entries[b]? = some entry' → entry.tx.inputKeys.Disjoint entry'.tx.outputKeys
  count : pool.entries.size ≤ maxBlockTxs

theorem length_entriesInBlockOrder (pool : Mempool) :
    pool.entriesInBlockOrder.length = pool.entries.size := by
  rw [pool.entriesInBlockOrder_perm.length_eq, List.length_map, Std.ExtTreeMap.length_toList]

theorem sum_entriesInBlockOrder (pool : Mempool) :
    (pool.entriesInBlockOrder.map (·.weight)).sum = sumWeights pool.entries := by
  rw [(pool.entriesInBlockOrder_perm.map _).sum_eq, List.map_map]
  rfl

/-- **What is selected from a compatible pool can be placed.** -/
theorem Consistent.placeable_of_sublist (consistent : pool.Consistent)
    (compatible : pool.Compatible) {budget : Nat}
    (sub : entries.Sublist pool.entriesInBlockOrder)
    (weight : (entries.map (·.weight)).sum ≤ budget) : Placeable entries budget := by
  have hflat : ∀ f : MempoolEntry → List (Octets 33),
      (pool.entriesInBlockOrder.flatMap f).Nodup → (entries.flatMap f).Nodup :=
    fun f h => h.sublist (sub.flatMap f)
  have hentry : ∀ entry ∈ entries, ∃ txHash : Hash256, pool.entries[txHash]? = some entry :=
    fun entry hmem => mem_entriesInBlockOrder.mp (sub.subset hmem)
  refine ⟨hflat _ ?_, hflat _ ?_, hflat _ ?_, ?_, weight, ?_⟩
  · exact (nodup_flatMap_entries _).mpr
      ⟨fun txHash entry h => (consistent.checked txHash entry h).nodup.1,
        fun a b entry entry' ha hb hne key hkey =>
          consistent.indexed.disjoint a b entry entry' ha hb hne key hkey⟩
  · exact (nodup_flatMap_entries _).mpr
      ⟨fun txHash entry h => (consistent.checked txHash entry h).nodup.2, compatible.outputs⟩
  · exact (nodup_flatMap_entries _).mpr ⟨compatible.kernel, compatible.kernels⟩
  · intro key hin hout
    obtain ⟨entry, hmem, hkey⟩ := List.mem_flatMap.mp hin
    obtain ⟨entry', hmem', hkey'⟩ := List.mem_flatMap.mp hout
    obtain ⟨a, ha⟩ := hentry entry hmem
    obtain ⟨b, hb⟩ := hentry entry' hmem'
    exact compatible.cutThrough a b entry entry' ha hb hkey hkey'
  · exact sub.length_le.trans (pool.length_entriesInBlockOrder.trans_le compatible.count)

/-- **If a whole pool can be placed, it is compatible.** -/
theorem compatible_of_placeable {budget : Nat}
    (placeable : Placeable pool.entriesInBlockOrder budget) : pool.Compatible := by
  obtain ⟨hkernel, hkernels⟩ := (nodup_flatMap_entries _).mp placeable.kernels
  obtain ⟨-, houtputs⟩ := (nodup_flatMap_entries _).mp placeable.outputs
  refine ⟨hkernel, hkernels, houtputs, fun a b entry entry' ha hb key hkey hkey' => ?_, ?_⟩
  · exact placeable.cutThrough key
      (List.mem_flatMap.mpr ⟨entry, mem_entriesInBlockOrder.mpr ⟨a, ha⟩, hkey⟩)
      (List.mem_flatMap.mpr ⟨entry', mem_entriesInBlockOrder.mpr ⟨b, hb⟩, hkey'⟩)
  · exact pool.length_entriesInBlockOrder.symm.trans_le placeable.count

/-- The weight limit never changes. -/
theorem maxWeight_run (ops : List MempoolOp) :
    (Mempool.new.run ops).maxWeight = maxBlockWeight * 10 := by
  have hchanges : ∀ {pool pool' : Mempool}, Changes pool pool' →
      pool'.maxWeight = pool.maxWeight := by
    intro pool pool' changes
    induction changes with
    | refl => rfl
    | tail _ change ih =>
      cases change with
      | remove txHash => exact (maxWeight_removeTx _ txHash).trans ih
      | insert => exact ih
  exact hchanges (Mempool.new.changes_run ops)

/-- A budget above the limit of the pool selects the whole pool. -/
theorem selectForBlock_all (ops : List MempoolOp) :
    (Mempool.new.run ops).selectForBlock (UInt32.ofNat (2 ^ 32 - 1)) =
      (Mempool.new.run ops).entriesInBlockOrder := by
  have hconsistent := consistent_run ops
  have hcapacity := hconsistent.capacity
  rw [maxWeight_run, hconsistent.weight, ← sum_entriesInBlockOrder] at hcapacity
  refine takeFitting_eq_self ?_
  rw [Nat.zero_add]
  exact hcapacity.trans (by decide)

/-- **A reachable pool yields placeable selections for all budgets exactly when it is
compatible.** -/
theorem template_placeable_iff (ops : List MempoolOp) :
    (∀ budget : UInt32, Placeable ((Mempool.new.run ops).selectForBlock budget) budget.toNat) ↔
      (Mempool.new.run ops).Compatible := by
  constructor
  · intro h
    have hall := h (UInt32.ofNat (2 ^ 32 - 1))
    rw [selectForBlock_all] at hall
    exact compatible_of_placeable hall
  · intro h budget
    exact (consistent_run ops).placeable_of_sublist h (takeFitting_sublist _ _ _)
      (sum_takeFitting_le _ _ _)

end Mempool

end Templates

namespace Transparent

attribute [local instance] primitives

/-- A payment with a fee: one input and one output, whose blinding factors differ by `key`. -/
def payment (input output : Nat × Nat) (key : Nat) (fee : Amount) : Transaction where
  inputs := [⟨commitTo input.1 input.2⟩]
  outputs := [outputTo output.1 output.2]
  kernels := [⟨kernelFeatPlain, fee, 0, commitTo key 0, signature key⟩]
  offset := 0

/-- A chain in which every commitment is an old output. -/
def anyUnspent : Mempool.ChainView where
  currentHeight := 10
  chainId := 0
  coinbaseMaturity := 1
  lookupUtxo _ := .ok (some ⟨0, false, []⟩)

/-- Two payments of different outputs that create the same commitment. -/
def clashingPayments : List MempoolOp :=
  [.acceptTxWithChainView anyUnspent (payment (1, 100000) (10, 75000) 9 ⟨25000, by decide⟩) 1 0,
    .acceptTxWithChainView anyUnspent (payment (2, 100000) (10, 75000) 8 ⟨25000, by decide⟩) 2 0]

/-- **The miner's selection repeats an output**: both payments are admitted with full validation,
both are selected under the miner's budget, and they create the same commitment. -/
theorem template_repeats_output :
    ((Mempool.new.run clashingPayments).selectForBlock 39977).length = 2 ∧
      ¬ Placeable ((Mempool.new.run clashingPayments).selectForBlock 39977) 39977 :=
  ⟨by decide +kernel, fun h => absurd h.outputs (by decide +kernel)⟩

end Transparent

section Balance

variable [Primitives] {transactions : List Transaction}

open Primitives

/-! ## Balance -/

/-- Add the offset of a transaction modulo the group order, if it is canonical. -/
def addTxOffset (total : Nat) (tx : Transaction) : Nat :=
  match scalarFromBytes tx.offset with
  | some s => (total + s) % secp256k1N
  | none => total

/-- The offset of a mined block. -/
def aggregateBlockKernelOffset (transactions : List Transaction) : Octets 32 :=
  BitVec.ofNat _ (transactions.foldl addTxOffset 0)

/-- Sum of the offsets of transactions. -/
def offsetSum (transactions : List Transaction) : Nat := (transactions.map (·.offset.toNat)).sum

/-- A mined block carries the sum of the offsets modulo the group order. -/
theorem toNat_aggregateBlockKernelOffset
    (canonical : ∀ tx ∈ transactions, tx.offset.toNat < secp256k1N) :
    (aggregateBlockKernelOffset transactions).toNat = offsetSum transactions % secp256k1N := by
  have hloop : ∀ total < secp256k1N,
      transactions.foldl addTxOffset total = (total + offsetSum transactions) % secp256k1N := by
    induction transactions with
    | nil => exact fun total h => (Nat.mod_eq_of_lt h).symm
    | cons tx transactions ih =>
      intro total h
      rw [List.forall_mem_cons] at canonical
      rw [List.foldl_cons, addTxOffset, scalarFromBytes, if_pos canonical.1]
      rw [ih canonical.2 _ (Nat.mod_lt _ (by decide)), Nat.mod_add_mod, offsetSum, offsetSum,
        List.map_cons, List.sum_cons, Nat.add_assoc]
  rw [aggregateBlockKernelOffset, hloop 0 (by decide), Nat.zero_add, BitVec.toNat_ofNat]
  exact Nat.mod_eq_of_lt ((Nat.mod_lt _ (by decide)).trans (by decide))

/-- **The balance equation of a transaction**, as points. -/
theorem balance_of_validateBalanceEquation {tx : Transaction}
    (balanced : validateBalanceEquation tx = .ok ()) :
    ∃ fee, tx.totalFee = .ok fee ∧ tx.offset.toNat < secp256k1N ∧
      pointSum (tx.outputs.map (·.commitment)) - pointSum (tx.inputs.map (·.commitment)) +
          fee.toNat • hPoint =
        pointSum (tx.kernels.map (·.excess)) + tx.offset.toNat • generator := by
  simp only [validateBalanceEquation, verifyBalanceEquation, sumProjective_eq, bind_eq_ok, ok_bind,
    addOffset_eq_ok, rejectIf_eq_ok, pure_eq_ok, addValue_eq] at balanced
  obtain ⟨fee, hfee, _, ⟨_, ⟨hoffset, rfl⟩, rfl⟩, hvalid⟩ := balanced
  exact ⟨fee, hfee, hoffset, by simpa using hvalid⟩

/-- **The equations of the transactions add up.** -/
theorem balance_of_transactions {start fees : UInt64}
    (balanced : ∀ tx ∈ transactions, validateBalanceEquation tx = .ok ())
    (total : transactions.foldlM (fun total tx => do
      let fee ← tx.totalFee
      okOr (.invalid "block fee overflow") (checkedAdd total fee)) start = .ok fees) :
    (∀ tx ∈ transactions, tx.offset.toNat < secp256k1N) ∧
      pointSum (transactions.flatMap (·.outputs.map (·.commitment))) -
          pointSum (transactions.flatMap (·.inputs.map (·.commitment))) + fees.toNat • hPoint =
        pointSum (transactions.flatMap (·.kernels.map (·.excess))) +
          offsetSum transactions • generator + start.toNat • hPoint := by
  induction transactions generalizing start with
  | nil =>
    cases total
    simp [pointSum, offsetSum]
  | cons tx transactions ih =>
    rw [List.forall_mem_cons] at balanced
    obtain ⟨fee, hfee, hoffset, hequation⟩ := balance_of_validateBalanceEquation balanced.1
    simp only [List.foldlM_cons, hfee, ok_bind, bind_eq_ok, okOr_eq_ok, checkedAdd_eq_some] at total
    obtain ⟨next, hnext, total⟩ := total
    obtain ⟨hoffsets, hrest⟩ := ih balanced.2 total
    refine ⟨List.forall_mem_cons.mpr ⟨hoffset, hoffsets⟩, ?_⟩
    rw [hnext, add_nsmul] at hrest
    simp only [List.flatMap_cons, pointSum_append, offsetSum, List.map_cons, List.sum_cons,
      add_nsmul]
    rw [add_sub_add_comm, eq_sub_of_add_eq hequation, eq_sub_of_add_eq hrest, offsetSum]
    abel

/-- **What the equation of a block says**, as points. -/
theorem verifyBlockBalanceEquation_iff {outputs inputs excesses : List Commitment}
    {offset : Octets 32} {reward : UInt64} :
    verifyBlockBalanceEquation outputs inputs excesses offset reward = .ok true ↔
      offset.toNat < secp256k1N ∧ pointSum outputs - pointSum inputs =
        pointSum excesses + offset.toNat • generator + reward.toNat • hPoint := by
  simp only [verifyBlockBalanceEquation, sumProjective_eq, ok_bind, bind_eq_ok, addOffset_eq_ok,
    pure_eq_ok, addValue_eq, decide_eq_true_eq]
  constructor
  · rintro ⟨_, ⟨hoffset, rfl⟩, hequal⟩
    exact ⟨hoffset, hequal⟩
  · rintro ⟨hoffset, hequal⟩
    exact ⟨_, ⟨hoffset, rfl⟩, hequal⟩

/-- **The coinbase commits to reward and fees** under the blinding factor of its excess. -/
def Block.CoinbaseBalanced (block : Block) (fees : UInt64) : Prop :=
  block.coinbase.output.commitment.point = block.coinbase.kernel.excess.point +
    ((blockReward block.header.height).noms.toNat + fees.toNat) • hPoint

/-- The sum of the offsets is what a block exceeds its excesses and its reward by, exactly if its
coinbase is balanced. -/
theorem surplus_iff {block : Block} {fees : UInt64}
    (balanced : ∀ tx ∈ block.transactions, validateBalanceEquation tx = .ok ())
    (total : block.totalFees = .ok fees) :
    pointSum block.allOutputs - pointSum block.allInputs = pointSum block.allExcesses +
        offsetSum block.transactions • generator +
          (blockReward block.header.height).noms.toNat • hPoint ↔
      block.CoinbaseBalanced fees := by
  obtain ⟨-, hequation⟩ := balance_of_transactions balanced total
  rw [Block.allOutputs, Block.allInputs, Block.allExcesses, pointSum_cons, pointSum_cons,
    add_sub_assoc, eq_sub_of_add_eq hequation, Block.CoinbaseBalanced, add_nsmul,
    UInt64.toNat_zero, zero_nsmul, add_zero]
  constructor
  · intro hequal
    rw [← sub_eq_zero] at hequal ⊢
    rw [← hequal]
    abel
  · intro hcoinbase
    rw [hcoinbase]
    abel

/-- **Which offset balances a block** whose transactions are balanced: the one a miner computes, the
sum of the offsets modulo the group order, and no other, exactly if the coinbase is balanced. -/
theorem block_balanced_iff (order : addOrderOf (generator : Point) = secp256k1N) {block : Block}
    {fees : UInt64} (balanced : ∀ tx ∈ block.transactions, validateBalanceEquation tx = .ok ())
    (total : block.totalFees = .ok fees) :
    (aggregateBlockKernelOffset block.transactions).toNat =
        offsetSum block.transactions % secp256k1N ∧
      ((∀ offset, verifyBlockBalanceEquation block.allOutputs block.allInputs block.allExcesses
          offset (blockReward block.header.height).noms = .ok true ↔
        offset = aggregateBlockKernelOffset block.transactions) ↔ block.CoinbaseBalanced fees) := by
  have haggregate := toNat_aggregateBlockKernelOffset (balance_of_transactions balanced total).1
  have hsum : (offsetSum block.transactions % secp256k1N) • (generator : Point) =
      offsetSum block.transactions • generator := by
    rw [nsmul_eq_nsmul_iff_modEq, order]
    exact Nat.mod_modEq _ _
  refine ⟨haggregate, ?_⟩
  rw [← surplus_iff balanced total, ← hsum, ← haggregate]
  constructor
  · intro unique
    exact (verifyBlockBalanceEquation_iff.mp ((unique _).mpr rfl)).2
  · intro hequal offset
    rw [verifyBlockBalanceEquation_iff, hequal, add_left_inj, add_right_inj,
      nsmul_eq_nsmul_iff_modEq, order, ← BitVec.toNat_inj]
    have hsmall : (aggregateBlockKernelOffset block.transactions).toNat < secp256k1N := by
      rw [haggregate]
      exact Nat.mod_lt _ (by decide)
    constructor
    · rintro ⟨hoffset, hmod⟩
      exact (Nat.ModEq.eq_of_lt_of_lt hmod hsmall hoffset).symm
    · intro hsame
      rw [hsame]
      exact ⟨hsmall, rfl⟩

end Balance

namespace Transparent

section

/-- A cyclic group of the order of the curve, in which a point is its blinding factor. -/
@[reducible] def cyclicPrimitives : Primitives :=
  { primitives with
    Point := ZMod secp256k1N
    pointGroup := inferInstance
    pointDecidableEq := inferInstance
    generator := 1
    hPoint := 2
    affineFromEncoded := fun bytes => some (blindingOf bytes : ZMod secp256k1N)
    compress := fun _ => 0 }

attribute [local instance] cyclicPrimitives

/-- A commitment of this instance. -/
def cyclicCommitment (blinding : Nat) : Commitment :=
  ⟨pointBytes blinding 0, decide_eq_true (tagOf_pointBytes blinding 0), rfl⟩

/-- A block after the last reward, with one transaction of offset one. -/
def cyclicBlock : Block where
  header := ⟨2, 2 ^ 63, 0, 0, 0, 0, 0, 1, 0, 0, ⟨0, 0⟩⟩
  coinbase := ⟨⟨cyclicCommitment 1, []⟩, ⟨kernelFeatCoinbase, 0, cyclicCommitment 1, 0⟩, 0⟩
  transactions := [⟨[⟨cyclicCommitment 1⟩], [⟨cyclicCommitment 3, []⟩],
    [⟨kernelFeatPlain, .zero, 0, cyclicCommitment 1, 0⟩], 1⟩]

theorem block_balanced_cyclic :
    verifyBlockBalanceEquation cyclicBlock.allOutputs cyclicBlock.allInputs cyclicBlock.allExcesses
      1 (blockReward cyclicBlock.header.height).noms = .ok true :=
  ((@block_balanced_iff _ (ZMod.addOrderOf_one _) cyclicBlock 0 (by decide +kernel)
    (by decide +kernel)).2.mpr (by unfold Block.CoinbaseBalanced; decide +kernel) 1).mpr
      (by decide +kernel)

end

section

attribute [local instance] primitives

/-- A block without transactions, the output of whose coinbase has one more in blinding than its
excess. -/
def shiftedBlock : Block where
  header := { (regtestBlock 1 0 0 []).header with totalKernelOffset := 1 }
  coinbase := { coinbaseAt 1 1 with output := outputTo 2 reward }
  transactions := []

/-- **Another offset balances the block**: the coinbase passes its check, the block is valid, and its
offset is not the sum of the offsets. -/
theorem offset_covers_coinbase :
    shiftedBlock.coinbase.validate shiftedBlock.header.height 0 0 = .ok () ∧
      verifyBlockBalanceEquation shiftedBlock.allOutputs shiftedBlock.allInputs
        shiftedBlock.allExcesses shiftedBlock.header.totalKernelOffset
        (blockReward shiftedBlock.header.height).noms = .ok true ∧
      validateBlockForNetwork shiftedBlock ⟨1, 0, 0⟩ networkMagicRegtest = .ok () ∧
      shiftedBlock.header.totalKernelOffset ≠
        aggregateBlockKernelOffset shiftedBlock.transactions := by
  decide +kernel

end

end Transparent

end DomProtocol
