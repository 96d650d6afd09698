import DomProtocol.Mempool

/-! # Invariants of the memory pool

Every operation, whether it succeeds or fails, is a sequence of primitive changes
(`Mempool.changes_step`): an entry is removed, or a checked entry that is new, conflicts with
nothing and fits is inserted (**`Mempool.Change`**). Both keep the four structures of a pool in
agreement and within the weight limit (`Mempool.Consistent`). -/

namespace DomProtocol

variable [Primitives]

/-- **What admission has checked of an entry.** -/
structure MempoolEntry.Checked (entry : MempoolEntry) : Prop where
  rules : validateTransactionStructure entry.tx = .ok ()
  weight : entry.tx.weightChecked = .ok entry.weight

/-- A new entry has been weighed. -/
theorem MempoolEntry.new_eq_ok {tx : Transaction} {txHash : Hash256} {now : UInt64}
    {entry : MempoolEntry} (created : MempoolEntry.new tx txHash now = .ok entry) :
    entry.tx = tx ∧ entry.txHash = txHash ∧ tx.weightChecked = .ok entry.weight := by
  simp only [MempoolEntry.new, bind_eq_ok, pure_eq_ok] at created
  obtain ⟨fee, -, weight, hweight, -, -, rfl⟩ := created
  exact ⟨rfl, rfl, hweight⟩

namespace Mempool

variable {pool pool' : Mempool}

variable {txHash : Hash256} {tx : Transaction} {entries : Table Hash256 MempoolEntry}
  {entry : MempoolEntry}

/-! ## Primitive changes -/

/-- **A primitive change of a pool.** -/
inductive Change : Mempool → Mempool → Prop
  | remove (pool : Mempool) (txHash : Hash256) : Change pool (pool.removeTx txHash)
  | insert {pool : Mempool} {entry : MempoolEntry} (checked : entry.Checked)
      (fresh : pool.entries[entry.txHash]? = none)
      (free : ∀ key ∈ entry.tx.inputKeys, ∀ owner, pool.inputIndex[key]? = some owner →
        owner = entry.txHash)
      (fits : pool.totalWeight + entry.weight ≤ pool.maxWeight) :
      Change pool (pool.insertEntry entry)

/-- A sequence of primitive changes. -/
abbrev Changes : Mempool → Mempool → Prop := Relation.ReflTransGen Change

/-- A sequence of removals. -/
abbrev Removals : Mempool → Mempool → Prop :=
  Relation.ReflTransGen fun pool pool' => ∃ txHash, pool' = pool.removeTx txHash

/-- Removals are changes. -/
theorem changes_of_removals (removals : Removals pool pool') : Changes pool pool' := by
  induction removals with
  | refl => exact .refl
  | tail _ step ih =>
    obtain ⟨txHash, rfl⟩ := step
    exact ih.tail (.remove _ txHash)

/-- A removal removes one entry. -/
theorem entries_removeTx (pool : Mempool) (txHash k : Hash256) :
    (pool.removeTx txHash).entries[k]? = if txHash = k then none else pool.entries[k]? := by
  unfold removeTx
  split
  · rename_i hnone
    split
    · rename_i heq
      rw [← heq, hnone]
    · rfl
  · exact Table.getElem?_erase ..

/-- It adds nothing to the index. -/
theorem inputIndex_removeTx {owner : Hash256} {key : Octets 33}
    (held : (pool.removeTx txHash).inputIndex[key]? = some owner) :
    pool.inputIndex[key]? = some owner := by
  unfold removeTx at held
  split at held
  · exact held
  · dsimp only at held
    rw [Table.getElem?_releaseAll] at held
    split at held
    · cases held
    · exact held

/-- It keeps the limit. -/
theorem maxWeight_removeTx (pool : Mempool) (txHash : Hash256) :
    (pool.removeTx txHash).maxWeight = pool.maxWeight := by
  unfold removeTx
  split <;> rfl

/-- What removals leave was there before. -/
theorem subset_of_removals (removals : Removals pool pool') :
    (∀ k : Hash256, pool.entries[k]? = none → pool'.entries[k]? = none) ∧
      (∀ (key : Octets 33) (owner : Hash256), pool'.inputIndex[key]? = some owner →
        pool.inputIndex[key]? = some owner) ∧
      pool'.maxWeight = pool.maxWeight := by
  induction removals with
  | refl => exact ⟨fun _ h => h, fun _ _ h => h, rfl⟩
  | tail _ step ih =>
    obtain ⟨txHash, rfl⟩ := step
    refine ⟨fun k h => ?_, fun key owner h => ih.2.1 key owner (inputIndex_removeTx h), ?_⟩
    · rw [entries_removeTx]
      split
      · rfl
      · exact ih.1 k h
    · rw [maxWeight_removeTx]
      exact ih.2.2

/-! ## Admission -/

/-- An eviction removes entries. -/
theorem removals_evictLowestFee (pool : Mempool) (minFeeRate : Nat) :
    Removals pool (pool.evictLowestFee minFeeRate).1 := by
  unfold evictLowestFee
  split
  · exact .refl
  · split
    · exact .refl
    · exact .single ⟨_, rfl⟩

/-- **Making room removes entries**, and if it succeeds the incoming entry fits. -/
theorem removals_makeRoom (entry : MempoolEntry) (rounds : Nat) (pool : Mempool) :
    Removals pool (pool.makeRoom entry rounds).1 ∧
      ((pool.makeRoom entry rounds).2 = .ok () →
        (pool.makeRoom entry rounds).1.totalWeight + entry.weight ≤
          (pool.makeRoom entry rounds).1.maxWeight) := by
  induction rounds generalizing pool with
  | zero => exact ⟨.refl, nofun⟩
  | succ rounds ih =>
    unfold makeRoom
    split
    · rename_i hfits
      exact ⟨.refl, fun _ => hfits⟩
    · have hevict := removals_evictLowestFee pool entry.feeRate
      split
      · rename_i evicted e heq
        rw [heq] at hevict
        exact ⟨hevict, nofun⟩
      · rename_i evicted heq
        rw [heq] at hevict
        split
        · exact ⟨hevict, nofun⟩
        · exact ⟨hevict.trans (ih evicted).1, (ih evicted).2⟩

/-- Without a conflict the inputs are free. -/
theorem free_of_firstConflictingTx (noConflict : pool.firstConflictingTx tx txHash = none) :
    ∀ key ∈ tx.inputKeys, ∀ owner, pool.inputIndex[key]? = some owner → owner = txHash := by
  intro key hmem owner howner
  have hkey := List.findSome?_eq_none_iff.mp noConflict key hmem
  rw [howner] at hkey
  by_contra hne
  simp [hne] at hkey

/-- **Admission is a sequence of changes**, also when it fails after some evictions. -/
theorem changes_acceptValidatedTx (pool : Mempool) (txHash : Hash256)
    (now : UInt64) (valid : validateTransactionStructure tx = .ok ()) :
    Changes pool (pool.acceptValidatedTx tx txHash now).1 := by
  unfold acceptValidatedTx
  split
  · exact .refl
  · rename_i hfresh
    rw [Table.contains_eq_isSome, Bool.not_eq_true, Option.isSome_eq_false_iff,
      Option.isNone_iff_eq_none] at hfresh
    split
    · exact .refl
    · rename_i hnone
      split
      · exact .refl
      · rename_i entry hnew
        obtain ⟨rfl, rfl, hweight⟩ := MempoolEntry.new_eq_ok hnew
        split
        · exact .refl
        · obtain ⟨hremovals, hfits⟩ := removals_makeRoom entry (pool.totalWeight + 1) pool
          split
          · rename_i roomy e heq
            rw [heq] at hremovals
            exact changes_of_removals hremovals
          · rename_i roomy heq
            rw [heq] at hremovals hfits
            obtain ⟨hentries, hindex, -⟩ := subset_of_removals hremovals
            refine (changes_of_removals hremovals).tail (.insert ⟨valid, hweight⟩ (hentries _ hfresh) ?_
              (hfits rfl))
            intro key hmem owner howner
            exact free_of_firstConflictingTx hnone key hmem owner (hindex key owner howner)

/-- Admission changes the pool. -/
theorem changes_acceptTx (pool : Mempool) (tx : Transaction) (txHash : Hash256) (now : UInt64) :
    Changes pool (pool.acceptTx tx txHash now).1 := by
  unfold acceptTx
  split
  · exact .refl
  · exact pool.changes_acceptValidatedTx txHash now ‹_›

/-- So does admission against a view. -/
theorem changes_acceptTxWithChainView (pool : Mempool) (view : ChainView) (tx : Transaction)
    (txHash : Hash256) (now : UInt64) :
    Changes pool (pool.acceptTxWithChainView view tx txHash now).1 := by
  unfold acceptTxWithChainView
  split
  · exact .refl
  · rename_i hvalid
    simp only [bind_eq_ok, validateTransaction] at hvalid
    obtain ⟨-, -, -, ⟨⟨⟩, hstructure, -⟩, -⟩ := hvalid
    exact pool.changes_acceptValidatedTx txHash now hstructure

/-! ## Operations -/

/-- Reinjection is a series of admissions. -/
theorem changes_reinject {accept : Mempool → Candidate → Mempool × Result Unit}
    (each : ∀ pool candidate, Changes pool (accept pool candidate).1) (pool : Mempool)
    (txs : List Candidate) : Changes pool (reinject accept pool txs).1 := by
  have hfold : ∀ (sorted : List Candidate) (pool : Mempool) (outcomes : List _),
      Changes pool (sorted.foldl (fun start candidate =>
        ((accept start.1 candidate).1,
          start.2 ++ [(candidate.2.1, (accept start.1 candidate).2)])) (pool, outcomes)).1 := by
    intro sorted
    induction sorted with
    | nil => exact fun _ _ => .refl
    | cons candidate sorted ih => exact fun pool outcomes => (each pool candidate).trans (ih _ _)
  exact hfold _ pool []

/-- Confirmation removes entries. -/
theorem removals_removeConfirmed (pool : Mempool) (spent : List (Octets 33)) :
    Removals pool (pool.removeConfirmed spent) := by
  have hfold : ∀ (hashes : List Hash256) (pool : Mempool),
      Removals pool (hashes.foldl removeTx pool) := by
    intro hashes
    induction hashes with
    | nil => exact fun _ => .refl
    | cons txHash hashes ih => exact fun pool => .head ⟨txHash, rfl⟩ (ih _)
  exact hfold _ pool

/-- **Every operation is a sequence of primitive changes.** -/
theorem changes_step (pool : Mempool) (op : MempoolOp) : Changes pool (pool.step op) := by
  cases op with
  | acceptTx tx txHash now => exact pool.changes_acceptTx tx txHash now
  | acceptTxWithChainView view tx txHash now =>
    exact pool.changes_acceptTxWithChainView view tx txHash now
  | removeTx txHash => exact .single (.remove pool txHash)
  | removeConfirmed spent => exact changes_of_removals (pool.removals_removeConfirmed spent)
  | reinjectBatch txs =>
    exact changes_reinject (fun pool (tx, txHash, now) => pool.changes_acceptTx tx txHash now)
      pool txs
  | reinjectBatchWithChainView view txs =>
    exact changes_reinject (fun pool (tx, txHash, now) =>
      pool.changes_acceptTxWithChainView view tx txHash now) pool txs

/-- **A run of operations is a series of changes.** -/
theorem changes_run (pool : Mempool) (ops : List MempoolOp) : Changes pool (pool.run ops) := by
  induction ops generalizing pool with
  | nil => exact .refl
  | cons op ops ih => exact (pool.changes_step op).trans (ih _)

/-! ## Consistency -/

/-- The sum of the weights of the entries. -/
def sumWeights (entries : Table Hash256 MempoolEntry) : Nat :=
  (entries.toList.map fun entry => entry.2.weight).sum

/-- A new entry adds its weight. -/
theorem sumWeights_insert (fresh : entries[txHash]? = none) :
    sumWeights (entries.insert txHash entry) = entry.weight + sumWeights entries := by
  have hperm := (Table.toList_insert_perm fresh entry).map
    fun e : Hash256 × MempoolEntry => e.2.weight
  exact hperm.sum_eq

/-- An erased entry takes its weight. -/
theorem sumWeights_erase (found : entries[txHash]? = some entry) :
    sumWeights entries = entry.weight + sumWeights (entries.erase txHash) := by
  have hperm := (Table.toList_erase_perm found).map
    fun e : Hash256 × MempoolEntry => e.2.weight
  exact hperm.sum_eq

/-- **The four structures of a pool describe one set of entries.** -/
structure Consistent (pool : Mempool) : Prop where
  hashes : ∀ (txHash : Hash256) (entry : MempoolEntry),
    pool.entries[txHash]? = some entry → entry.txHash = txHash
  checked : ∀ (txHash : Hash256) (entry : MempoolEntry),
    pool.entries[txHash]? = some entry → entry.Checked
  inputs : ∀ (key : Octets 33) txHash, pool.inputIndex[key]? = some txHash ↔
    ∃ entry, pool.entries[txHash]? = some entry ∧ key ∈ entry.tx.inputKeys
  fees : ∀ key : FeeKey, pool.feeIndex[key]? = some () ↔
    ∃ entry, pool.entries[key.txHash]? = some entry ∧ entry.feeRate = key.feeRate
  weight : pool.totalWeight = sumWeights pool.entries
  capacity : pool.totalWeight ≤ pool.maxWeight

/-- An empty pool is consistent. -/
theorem Consistent.new : Mempool.new.Consistent where
  hashes _ _ h := by simp [Mempool.new] at h
  checked _ _ h := by simp [Mempool.new] at h
  inputs _ _ := by simp [Mempool.new]
  fees _ := by simp [Mempool.new]
  weight := rfl
  capacity := Nat.zero_le _

/-- **Removing an entry keeps the structures together.** -/
theorem Consistent.removeTx (consistent : pool.Consistent) (txHash : Hash256) :
    (pool.removeTx txHash).Consistent := by
  unfold Mempool.removeTx
  split
  · exact consistent
  · rename_i entry hfound
    have hsub : ∀ {k : Hash256} {e : MempoolEntry},
        (pool.entries.erase txHash)[k]? = some e ↔ txHash ≠ k ∧ pool.entries[k]? = some e := by
      intro k e
      rw [Table.getElem?_erase]
      split <;> simp [*]
    refine ⟨fun k e h => consistent.hashes k e (hsub.mp h).2,
      fun k e h => consistent.checked k e (hsub.mp h).2, fun key owner => ?_, fun key => ?_, ?_,
      (Nat.sub_le _ _).trans consistent.capacity⟩
    · -- a commitment is released exactly when its owner is the removed entry
      have howner := consistent.inputs key owner
      simp only [hsub, Table.getElem?_releaseAll]
      by_cases heq : txHash = owner
      · subst heq
        simp only [ne_eq, not_true_eq_false, false_and, exists_false, iff_false]
        intro h
        split at h
        · cases h
        · rename_i hkept
          obtain ⟨e, hentry, hmem⟩ := howner.mp h
          rw [hfound, Option.some.injEq] at hentry
          exact hkept ⟨hentry ▸ hmem, h⟩
      · simp only [ne_eq, heq, not_false_eq_true, true_and, ← howner]
        split
        · rename_i hheld
          rw [hheld.2, Option.some.injEq]
          exact iff_of_false nofun heq
        · rfl
    · have hkey := consistent.fees key
      rw [Table.getElem?_erase]
      simp only [hsub]
      by_cases heq : txHash = key.txHash
      · -- the only key of the removed entry is the one that is erased
        have hgone : (if FeeKey.mk entry.feeRate txHash = key then none
            else pool.feeIndex[key]?) ≠ some () := by
          intro h
          split at h
          · cases h
          · rename_i hne
            obtain ⟨e, hentry, hrate⟩ := hkey.mp h
            rw [← heq, hfound, Option.some.injEq] at hentry
            exact hne (FeeKey.ext (hentry ▸ hrate) heq)
        exact iff_of_false hgone fun ⟨_, ⟨hne, _⟩, _⟩ => hne heq
      · have hne : FeeKey.mk entry.feeRate txHash ≠ key := fun h => heq (congrArg FeeKey.txHash h)
        simp only [ne_eq, heq, not_false_eq_true, true_and, if_neg hne, hkey]
    · have hweight := consistent.weight
      have hsum := sumWeights_erase hfound
      dsimp only
      omega

/-- **Inserting a fresh entry keeps the structures together.** -/
theorem Consistent.insertEntry (consistent : pool.Consistent)
    (checked : entry.Checked) (fresh : pool.entries[entry.txHash]? = none)
    (free : ∀ key ∈ entry.tx.inputKeys, ∀ owner, pool.inputIndex[key]? = some owner →
      owner = entry.txHash)
    (fits : pool.totalWeight + entry.weight ≤ pool.maxWeight) :
    (pool.insertEntry entry).Consistent := by
  have hsub : ∀ {k : Hash256} {e : MempoolEntry},
      (pool.insertEntry entry).entries[k]? = some e ↔
        (entry.txHash = k ∧ entry = e) ∨ (entry.txHash ≠ k ∧ pool.entries[k]? = some e) := by
    intro k e
    show (pool.entries.insert entry.txHash entry)[k]? = _ ↔ _
    rw [Table.getElem?_insert]
    split <;> simp [*]
  refine ⟨fun k e h => ?_, fun k e h => ?_, fun key owner => ?_, fun key => ?_, ?_, fits⟩
  · obtain ⟨hk, rfl⟩ | ⟨-, h⟩ := hsub.mp h
    · exact hk
    · exact consistent.hashes k e h
  · obtain ⟨hk, rfl⟩ | ⟨-, h⟩ := hsub.mp h
    · exact checked
    · exact consistent.checked k e h
  · have howner := consistent.inputs key owner
    show (Table.claimAll entry.txHash entry.tx.inputKeys pool.inputIndex)[key]? = _ ↔ _
    rw [Table.getElem?_claimAll]
    simp only [hsub]
    split
    · -- the entry claims the commitment; another entry that spends it would hold it already
      rename_i hmem
      rw [Option.some.injEq]
      constructor
      · rintro rfl
        exact ⟨entry, .inl ⟨rfl, rfl⟩, hmem⟩
      · rintro ⟨e, ⟨hk, -⟩ | ⟨hne, hentry⟩, hkey⟩
        · exact hk
        · exact absurd (free key hmem owner (howner.mpr ⟨e, hentry, hkey⟩)).symm hne
    · rename_i hmem
      rw [howner]
      constructor
      · rintro ⟨e, hentry, hkey⟩
        refine ⟨e, .inr ⟨fun heq => ?_, hentry⟩, hkey⟩
        rw [← heq, fresh] at hentry
        cases hentry
      · rintro ⟨e, ⟨-, rfl⟩ | ⟨-, hentry⟩, hkey⟩
        · exact absurd hkey hmem
        · exact ⟨e, hentry, hkey⟩
  · have hkey := consistent.fees key
    show (pool.feeIndex.insert ⟨entry.feeRate, entry.txHash⟩ ())[key]? = _ ↔ _
    rw [Table.getElem?_insert]
    simp only [hsub]
    split
    · rename_i heq
      subst heq
      simp
    · rename_i hne
      rw [hkey]
      constructor
      · rintro ⟨e, hentry, hrate⟩
        refine ⟨e, .inr ⟨fun heq => ?_, hentry⟩, hrate⟩
        rw [← heq, fresh] at hentry
        cases hentry
      · rintro ⟨e, ⟨hk, rfl⟩ | ⟨-, hentry⟩, hrate⟩
        · exact absurd (FeeKey.ext hrate hk) hne
        · exact ⟨e, hentry, hrate⟩
  · have hweight := consistent.weight
    have hsum : sumWeights (pool.insertEntry entry).entries = _ := sumWeights_insert fresh
    show pool.totalWeight + entry.weight = _
    omega

/-- **A primitive change keeps a pool consistent.** -/
theorem Consistent.change (consistent : pool.Consistent) (change : Change pool pool') :
    pool'.Consistent := by
  cases change with
  | remove txHash => exact consistent.removeTx txHash
  | insert checked fresh free fits => exact consistent.insertEntry checked fresh free fits

/-- **Changes keep a pool consistent.** -/
theorem Consistent.changes (consistent : pool.Consistent) (changes : Changes pool pool') :
    pool'.Consistent := by
  induction changes with
  | refl => exact consistent
  | tail _ change ih => exact ih.change change

/-- **Every reachable pool is consistent.** -/
theorem consistent_run (ops : List MempoolOp) : (Mempool.new.run ops).Consistent :=
  Consistent.new.changes (Mempool.new.changes_run ops)

/-! ## What the indices of a reachable pool say -/

/-- **The indices of a pool describe its entries.** -/
structure Indexed (pool : Mempool) : Prop where
  inputIndex : ∀ (key : Octets 33) txHash, pool.inputIndex[key]? = some txHash ↔
    ∃ entry, pool.entries[txHash]? = some entry ∧ key ∈ entry.tx.inputKeys
  feeIndex : ∀ (txHash : Hash256) entry, pool.entries[txHash]? = some entry →
    ∃! key : FeeKey, pool.feeIndex[key]? = some () ∧ key.txHash = txHash
  feeKeys : ∀ key : FeeKey, pool.feeIndex[key]? = some () →
    (pool.entries[key.txHash]?).isSome = true
  totalWeight : pool.totalWeight = sumWeights pool.entries
  maxWeight : pool.totalWeight ≤ pool.maxWeight
  disjoint : ∀ (a b : Hash256) entry entry', pool.entries[a]? = some entry →
    pool.entries[b]? = some entry' → a ≠ b → ∀ key ∈ entry.tx.inputKeys, key ∉ entry'.tx.inputKeys

/-- A consistent pool indexes its inputs. -/
theorem Consistent.indexed (consistent : pool.Consistent) : pool.Indexed where
  inputIndex := consistent.inputs
  feeIndex txHash entry found := by
    refine ⟨⟨entry.feeRate, txHash⟩, ⟨(consistent.fees _).mpr ⟨entry, found, rfl⟩, rfl⟩, ?_⟩
    rintro key ⟨hkey, rfl⟩
    obtain ⟨e, hentry, hrate⟩ := (consistent.fees key).mp hkey
    rw [found, Option.some.injEq] at hentry
    exact FeeKey.ext (hentry ▸ hrate.symm) rfl
  feeKeys key hkey := by
    obtain ⟨e, hentry, -⟩ := (consistent.fees key).mp hkey
    rw [hentry]
    rfl
  totalWeight := consistent.weight
  maxWeight := consistent.capacity
  disjoint a b entry entry' ha hb hne key hmem hmem' := by
    have howner := (consistent.inputs key a).mpr ⟨entry, ha, hmem⟩
    have howner' := (consistent.inputs key b).mpr ⟨entry', hb, hmem'⟩
    rw [howner, Option.some.injEq] at howner'
    exact hne howner'

/-- **The indices agree after every sequence of operations** from the empty pool, whether the
operations succeed or fail. -/
theorem mempool_indexed (ops : List MempoolOp) : (Mempool.new.run ops).Indexed :=
  (consistent_run ops).indexed

end Mempool

end DomProtocol
