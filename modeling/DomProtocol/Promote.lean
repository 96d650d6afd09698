import DomProtocol.Switch

/-! # Promotion keeps the record

The store updates of a promotion write what the overlays show: **`Fork.switch`** succeeds exactly
when the new branch connects to the undone tables and no output that stays unspent changes its proof
or coinbase flag (`IsFork.exists_switch_iff`), and the tables are then those of the new chain, up to the
entries of the unspent outputs (`Switched`). So a promotion turns the record of one chain into the
record of another (**`Canonical.prepareReorg`**). -/

namespace DomProtocol

open Table

variable [Primitives]

open Ledger

variable {store : Store} {front : List Link} {blocks : List Block}

/-! ## Updates of the unspent outputs -/

/-- No output that stays unspent changes its proof or coinbase flag. -/
def Compatible (before after : Octets 33 → Option UtxoEntry) : Prop :=
  ∀ k current desired, before k = some current → after k = some desired →
    current.proof = desired.proof ∧ current.isCoinbase = desired.isCoinbase

/-- The update of a touched commitment: what is written, unless it is already there. -/
def neededUpdate (before : Octets 33 → Option UtxoEntry) (entry : Octets 33 × Option UtxoEntry) :
    Option (Octets 33 × Option Bytes) :=
  if (before entry.1).map UtxoEntry.toBytes = entry.2.map UtxoEntry.toBytes then none
  else some (entry.1, entry.2.map UtxoEntry.toBytes)

section

omit [Primitives]

theorem utxoUpdate_eq_ok {k : Octets 33} {current desired : Option UtxoEntry}
    {update : Option (Octets 33 × Option Bytes)} :
    utxoUpdate k current desired = .ok update ↔
      (∀ c d, current = some c → desired = some d → c.proof = d.proof ∧ c.isCoinbase = d.isCoinbase) ∧
        update = if current.map UtxoEntry.toBytes = desired.map UtxoEntry.toBytes then none
          else some (k, desired.map UtxoEntry.toBytes) := by
  cases current with
  | none => cases desired <;> simp [utxoUpdate, eq_comm]
  | some c =>
    cases desired with
    | none => simp [utxoUpdate, eq_comm]
    | some d =>
      simp only [utxoUpdate, Option.map_some, Option.some.injEq]
      by_cases hsame : c.toBytes = d.toBytes
      · rw [UtxoEntry.toBytes_injective hsame]
        simp [eq_comm]
      · simp only [hsame, if_false]
        split
        · rename_i h
          simp [h, eq_comm]
        · rename_i h
          simp [h]

/-- **The updates of the unspent outputs** exist exactly for compatible changes. -/
theorem buildUtxoUpdates_eq_ok (encoded : store.WellEncoded)
    {overlay : Table (Octets 33) (Option UtxoEntry)} {updates : List (Octets 33 × Option Bytes)} :
    buildUtxoUpdates store overlay = .ok updates ↔
      Compatible store.ledger (view overlay store.ledger) ∧
        updates = overlay.toList.filterMap (neededUpdate store.ledger) := by
  have hentry : ∀ (entry : Octets 33 × Option UtxoEntry) update, (do
      let current ← store.getUtxo entry.1
      utxoUpdate entry.1 current entry.2) = .ok update ↔
        (∀ c d, store.ledger entry.1 = some c → entry.2 = some d →
          c.proof = d.proof ∧ c.isCoinbase = d.isCoinbase) ∧
        update = neededUpdate store.ledger entry := by
    intro entry update
    rw [encoded.getUtxo_eq, ok_bind, utxoUpdate_eq_ok]
    rfl
  have hcompatible : (∀ entry ∈ overlay.toList, ∀ c d, store.ledger entry.1 = some c →
      entry.2 = some d → c.proof = d.proof ∧ c.isCoinbase = d.isCoinbase) ↔
        Compatible store.ledger (view overlay store.ledger) := by
    constructor
    · intro h k c d hc hd
      unfold view at hd
      cases hk : overlay[k]? with
      | none =>
        rw [hk, Option.getD_none, hc, Option.some.injEq] at hd
        exact hd ▸ ⟨rfl, rfl⟩
      | some pending =>
        rw [hk, Option.getD_some] at hd
        exact h (k, pending) (Std.ExtTreeMap.mem_toList_iff_getElem?_eq_some.mpr hk) c d hc hd
    · rintro h ⟨k, pending⟩ hmem c d hc rfl
      have hk := Std.ExtTreeMap.mem_toList_iff_getElem?_eq_some.mp hmem
      exact h k c d hc (by rw [view, hk, Option.getD_some])
  simp only [buildUtxoUpdates, bind_eq_ok, pure_eq_ok, mapM_eq_ok_map hentry, hcompatible]
  constructor
  · rintro ⟨_, ⟨h, rfl⟩, rfl⟩
    exact ⟨h, by rw [List.filterMap_map]; rfl⟩
  · rintro ⟨h, rfl⟩
    exact ⟨_, ⟨h, rfl⟩, by rw [List.filterMap_map]; rfl⟩

/-- The needed updates are those of the entries that change. -/
theorem filterMap_neededUpdate (before : Octets 33 → Option UtxoEntry)
    (entries : List (Octets 33 × Option UtxoEntry)) :
    entries.filterMap (neededUpdate before) =
      (entries.filter fun entry => (before entry.1).map UtxoEntry.toBytes ≠
        entry.2.map UtxoEntry.toBytes).map
          fun entry => (entry.1, entry.2.map UtxoEntry.toBytes) := by
  induction entries with
  | nil => rfl
  | cons entry entries ih =>
    rw [List.filterMap_cons, List.filter_cons, ih, neededUpdate]
    by_cases hsame : (before entry.1).map UtxoEntry.toBytes = entry.2.map UtxoEntry.toBytes
    · simp [hsame]
    · simp [hsame]

/-- **What the updates write is what the overlay shows.** -/
theorem getElem?_utxoUpdates (encoded : store.WellEncoded)
    (overlay : Table (Octets 33) (Option UtxoEntry)) (k : Octets 33) :
    (applyUpdates (overlay.toList.filterMap (neededUpdate store.ledger)) store.utxos)[k]? =
      (view overlay store.ledger k).map UtxoEntry.toBytes := by
  have hnodup : ((overlay.toList.filter fun entry => (store.ledger entry.1).map UtxoEntry.toBytes ≠
      entry.2.map UtxoEntry.toBytes).map Prod.fst).Nodup :=
    (nodup_keys_toList overlay).sublist (List.filter_sublist.map _)
  rw [filterMap_neededUpdate,
    getElem?_applyUpdates (by simpa [List.map_map, Function.comp_def] using hnodup),
    lookup_map_snd, lookup_filter _ (nodup_keys_toList overlay),
    lookup_toList, encoded.utxos_eq, view]
  cases overlay[k]? with
  | none => rfl
  | some pending =>
    rw [Option.getD_some]
    by_cases hsame : (store.ledger k).map UtxoEntry.toBytes = pending.map UtxoEntry.toBytes
    · simp [Option.filter, hsame]
    · simp [Option.filter, hsame]

/-- The kernel updates write what the overlay shows. -/
theorem getElem?_kernelUpdates (store : Store) (overlay : Table (Octets 33) (Option Hash256))
    (x : Octets 33) :
    (applyUpdates (buildKernelUpdates store overlay) store.kernels)[x]? =
      view overlay (fun x => store.kernels[x]?) x := by
  have hnodup : ((buildKernelUpdates store overlay).map Prod.fst).Nodup :=
    (nodup_keys_toList overlay).sublist (List.filter_sublist.map _)
  rw [getElem?_applyUpdates hnodup, buildKernelUpdates,
    lookup_filter _ (nodup_keys_toList overlay), lookup_toList, view]
  cases overlay[x]? with
  | none => rfl
  | some pending =>
    by_cases hsame : store.kernels[x]? = pending
    · simp [Option.filter, hsame]
    · simp [Option.filter, hsame]

end

/-! ## Updates of the height index -/

variable {chain : List Link}

section

variable (linked : Linked (front ++ blocks.map Link.block))
include linked

/-- The heights of a branch on top of a linked chain. -/
theorem Linked.height_branch {i : Nat} {block : Block}
    (hi : blocks[i]? = some block) : block.header.height.toNat = front.length + i := by
  refine linked.height (front.length + i) (.block block) ?_
  rw [List.getElem?_append_right (by omega), Nat.add_sub_cancel_left, List.getElem?_map, hi]
  rfl

/-- The blocks of a branch have distinct heights. -/
theorem Linked.nodup_branch_heights :
    (((blocks.map indexed).map fun indexed =>
      (indexed.2.header.height, some indexed.1)).map Prod.fst).Nodup := by
  rw [List.map_map, List.map_map, List.nodup_iff_injective_getElem]
  rintro ⟨i, hi⟩ ⟨j, hj⟩ heq
  have hi' : i < blocks.length := by simpa using hi
  have hj' : j < blocks.length := by simpa using hj
  have hheight := congrArg UInt64.toNat heq
  simp only [List.getElem_map, Function.comp_apply, indexed] at hheight
  rw [linked.height_branch (List.getElem?_eq_getElem hi'),
    linked.height_branch (List.getElem?_eq_getElem hj')] at hheight
  exact Fin.ext (Nat.add_left_cancel hheight)

/-- The branch block of a height. -/
theorem lookup_branch_heights (height : UInt64) :
    (((blocks.map indexed).map fun indexed => (indexed.2.header.height, some indexed.1)).lookup
      height) = if front.length ≤ height.toNat then
        (blocks[height.toNat - front.length]?).map fun block => some (blockId block) else none := by
  have hnodup := linked.nodup_branch_heights
  ext value
  rw [lookup_eq_some hnodup]
  simp only [List.map_map, List.mem_map, Function.comp_apply, indexed, Prod.mk.injEq]
  constructor
  · rintro ⟨block, hmem, rfl, rfl⟩
    obtain ⟨i, hi⟩ := List.mem_iff_getElem?.mp hmem
    rw [linked.height_branch hi, if_pos (by omega), Nat.add_sub_cancel_left, hi]
    rfl
  · intro h
    split at h
    · rename_i hle
      obtain ⟨block, hblock, rfl⟩ := Option.map_eq_some_iff.mp h
      refine ⟨block, List.mem_of_getElem? hblock, ?_, rfl⟩
      rw [← UInt64.toNat_inj, linked.height_branch hblock]
      omega
    · cases h

end

omit [Primitives] in
/-- The heights that are cleared. -/
theorem lookup_cleared {start count : Nat} (bound : start + count ≤ 2 ^ 64) (height : UInt64) :
    (((List.range' start count).map fun h => (UInt64.ofNat h, (none : Option Hash256))).lookup
      height) = if start ≤ height.toNat ∧ height.toNat < start + count then some none else none := by
  rw [← Function.comp_def (fun key => (key, (none : Option Hash256))) UInt64.ofNat, ← List.map_map,
    lookup_map_key fun _ => none]
  have hmem : height ∈ (List.range' start count).map UInt64.ofNat ↔
      start ≤ height.toNat ∧ height.toNat < start + count := by
    simp only [List.mem_map, List.mem_range'_1]
    constructor
    · rintro ⟨h, hrange, rfl⟩
      rwa [UInt64.toNat_ofNat_of_lt' (by norm_num; omega)]
    · intro hrange
      exact ⟨height.toNat, hrange, by simp⟩
  simp only [hmem]

/-- **The height index after a promotion** lists the new chain. -/
theorem getElem?_heightUpdates {s : ChainState} (canonical : Canonical s chain)
    {old new : List Block} (split : chain = front ++ old.map Link.block)
    (nonempty : front ≠ []) (linked : Linked (front ++ new.map Link.block)) (height : UInt64) :
    (applyUpdates (s.heightUpdates (front.length - 1) (new.map indexed)).toList
      s.store.heightIndex)[height]? = (front ++ new.map Link.block)[height.toNat]?.map Link.hash := by
  have hpos : 0 < front.length := List.length_pos_iff.mpr nonempty
  have hlength := canonical.tree.length_le
  have htip : s.tipHeight.toNat = front.length + old.length - 1 := by
    rw [canonical.tipHeight, split, List.length_append, List.length_map]
  rw [split, List.length_append, List.length_map] at hlength
  have hclearedNodup : ((((List.range' (front.length - 1 + 1)
      (s.tipHeight.toNat - (front.length - 1))).map
        fun h => (UInt64.ofNat h, (none : Option Hash256)))).map Prod.fst).Nodup := by
    rw [List.map_map]
    refine List.Nodup.map_on ?_ List.nodup_range'
    intro a ha b hb hab
    rw [List.mem_range'_1] at ha hb
    have := congrArg UInt64.toNat hab
    simp only [Function.comp_apply] at this
    rwa [UInt64.toNat_ofNat_of_lt' (by norm_num; omega),
      UInt64.toNat_ofNat_of_lt' (by norm_num; omega)] at this
  rw [getElem?_applyUpdates_toList, ChainState.heightUpdates,
    getElem?_insertAll linked.nodup_branch_heights, getElem?_insertAll hclearedNodup,
    lookup_branch_heights linked, lookup_cleared (by omega), getElem?_empty,
    canonical.tree.index, split]
  by_cases hfront : height.toNat < front.length
  · rw [if_neg (by omega), if_neg (by omega), List.getElem?_append_left hfront,
      List.getElem?_append_left hfront]
    rfl
  · rw [if_pos (by omega), List.getElem?_append_right (by omega),
      List.getElem?_append_right (by omega), List.getElem?_map, List.getElem?_map]
    cases hnew : new[height.toNat - front.length]? with
    | some block => rfl
    | none =>
      rw [Option.map_none, Option.none_or]
      by_cases hcleared : height.toNat < front.length + old.length
      · rw [if_pos (by omega)]
        rfl
      · rw [if_neg (by omega), List.getElem?_eq_none (by omega)]
        rfl

/-! ## The switch -/

/-- **The store after a promotion**, relative to the store before. -/
structure Switched (store store' : Store) (chain : List Link)
    (ledger : Octets 33 → Option UtxoEntry) : Prop where
  blocks : store'.blocks = store.blocks
  blockBodies : store'.blockBodies = store.blockBodies
  index : ∀ height : UInt64, store'.heightIndex[height]? = chain[height.toNat]?.map Link.hash
  tip : store'.tip = chain.getLast?.map Link.hash
  utxos : ∀ k : Octets 33, store'.utxos[k]? = (ledger k).map UtxoEntry.toBytes
  kernels : ∀ x : Octets 33, store'.kernels[x]? = kernelsAfter chain x

namespace IsFork

variable {s : ChainState} {newTip : Hash256} {fork : ChainState.Fork} {front : List Link}
  {old new : List Block} {store' : Store}

/-- The unspent outputs after a promotion. -/
def newLedger (s : ChainState) (front : List Link) (old new : List Block) :
    Octets 33 → Option UtxoEntry :=
  run (utxoEffects new) (undoneLedger s.store front old)

variable (isFork : IsFork s chain newTip fork front old new) (canonical : Canonical s chain)
include isFork canonical

/-- **When the switch succeeds.** -/
theorem exists_switch_iff :
    (∃ store', fork.switch s newTip = .ok store') ↔
      ConnectsAll s.coinbaseMaturity new (undoneLedger s.store front old) (kernelsAfter front) ∧
        Compatible s.store.ledger (newLedger s front old new) := by
  obtain ⟨undone, hundone, hutxo, hkernel⟩ := isFork.exists_undone canonical
  have hencoded := canonical.books.encoded
  simp only [ChainState.Fork.switch, ChainState.Fork.overlays, hundone, ok_bind, isFork.connect,
    bind_eq_ok, foldlM_applyConnect_eq_ok hencoded isFork.sound, buildUtxoUpdates_eq_ok hencoded,
    pure_eq_ok, hutxo, hkernel]
  constructor
  · rintro ⟨_, _, ⟨hconnects, rfl⟩, _, ⟨hcompatible, rfl⟩, -⟩
    have hview := (views_connected s.store isFork.sound hconnects.excessNodup undone).1
    rw [hutxo] at hview
    refine ⟨hconnects, ?_⟩
    rw [newLedger, ← hview]
    exact hcompatible
  · rintro ⟨hconnects, hcompatible⟩
    have hview := (views_connected s.store isFork.sound hconnects.excessNodup undone).1
    rw [hutxo] at hview
    rw [newLedger, ← hview] at hcompatible
    exact ⟨_, _, ⟨hconnects, rfl⟩, _, ⟨hcompatible, rfl⟩, rfl⟩

/-- **What the switch writes.** -/
theorem switched (switch : fork.switch s newTip = .ok store') :
    Switched s.store store' (front ++ new.map Link.block) (newLedger s front old new) := by
  obtain ⟨undone, hundone, hutxo, hkernel⟩ := isFork.exists_undone canonical
  have hencoded := canonical.books.encoded
  simp only [ChainState.Fork.switch, ChainState.Fork.overlays, hundone, ok_bind, isFork.connect,
    bind_eq_ok, foldlM_applyConnect_eq_ok hencoded isFork.sound, buildUtxoUpdates_eq_ok hencoded,
    pure_eq_ok, hutxo, hkernel] at switch
  obtain ⟨_, ⟨hconnects, rfl⟩, _, ⟨-, rfl⟩, rfl⟩ := switch
  obtain ⟨hutxos, hkernels⟩ := views_connected s.store isFork.sound hconnects.excessNodup undone
  obtain ⟨hlinked, htip, -⟩ := isFork.linked canonical.tree
  refine ⟨rfl, rfl, fun height => ?_, ?_, fun k => ?_, fun x => ?_⟩
  · show (applyUpdates (s.heightUpdates _ _).toList s.store.heightIndex)[height]? = _
    rw [isFork.height, getElem?_heightUpdates canonical isFork.split isFork.nonempty hlinked]
  · rw [getLast?_map_hash (by simp [isFork.nonempty]), htip]
    rfl
  · show (applyUpdates _ s.store.utxos)[k]? = _
    rw [getElem?_utxoUpdates hencoded, newLedger, ← hutxo, ← hutxos]
    rfl
  · show (applyUpdates (buildKernelUpdates s.store _) s.store.kernels)[x]? = _
    rw [getElem?_kernelUpdates, kernelsAfter, map_kernelEffect_append, run_append]
    show Overlays.kernelView _ _ x = _
    rw [hkernels, hkernel]
    rfl

/-! ## The record after a promotion -/

/-- The books of the new chain. -/
theorem books (connects : ConnectsAll s.coinbaseMaturity new (undoneLedger s.store front old)
      (kernelsAfter front))
    (switched : Switched s.store store' (front ++ new.map Link.block) (newLedger s front old new)) :
    Books store' (front ++ new.map Link.block) := by
  obtain ⟨hencoded, hledger⟩ := Store.WellEncoded.of_eq switched.utxos
  have hdomain := isFork.sameDomain_undoneLedger canonical
  have hfits := canonical.books.outputsFit
  have hkernels := canonical.books.kernelsFit
  rw [isFork.split, map_utxoEffect_append, fitsAll_append] at hfits
  rw [isFork.split, map_kernelEffect_append, fitsAll_append] at hkernels
  refine ⟨hencoded, ?_, ?_, fun link hmem => ?_, ?_, switched.kernels⟩
  · rw [map_utxoEffect_append, fitsAll_append]
    exact ⟨hfits.1, hdomain.fitsAll connects.outputsFit⟩
  · rw [hledger, newLedger, unspentAfter, map_utxoEffect_append, run_append]
    exact hdomain.run (utxoEffects new)
  · rcases List.mem_append.mp hmem with hfront | hnew
    · exact canonical.books.excessNodup link (isFork.split ▸ List.mem_append_left _ hfront)
    · obtain ⟨block, hblock, rfl⟩ := List.mem_map.mp hnew
      exact connects.excessNodup block hblock
  · rw [map_kernelEffect_append, fitsAll_append]
    exact ⟨hkernels.1, connects.kernelsFit⟩

/-- The tree around the new chain. -/
theorem tree
    (switched : Switched s.store store' (front ++ new.map Link.block) (newLedger s front old new)) :
    Tree store' s.networkMagic s.chainId (front ++ new.map Link.block) := by
  have htree := canonical.tree
  obtain ⟨hlinked, -, hheld⟩ := isFork.linked htree
  have hholds : ∀ link : Link, s.store.Holds link → store'.Holds link := fun link h =>
    ⟨switched.blocks ▸ h.header, switched.blockBodies ▸ h.body⟩
  refine ⟨switched.index, fun link hmem => hholds link (hheld link hmem), fun link hmem => ?_, ?_,
    ?_, hlinked⟩
  · rcases List.mem_append.mp hmem with hfront | hnew
    · exact htree.sound link (isFork.split ▸ List.mem_append_left _ hfront)
    · obtain ⟨block, hblock, rfl⟩ := List.mem_map.mp hnew
      exact isFork.sound block hblock
  · intro hash bytes hstored
    obtain ⟨link, rfl, hlink, hsound, hattached⟩ := htree.held hash bytes
      (switched.blocks ▸ hstored)
    refine ⟨link, rfl, hholds link hlink, hsound, ?_⟩
    rcases hattached with ⟨hzero, hmem⟩ | ⟨parent, hparent, hparentHeld, hheight⟩
    · -- genesis is in the common part
      obtain ⟨member, hmember, hsame⟩ := List.mem_map.mp hmem
      obtain ⟨i, hi⟩ := List.mem_iff_getElem?.mp hmember
      have hindex := htree.height_of_hash hi hlink hsame.symm
      rw [hzero, UInt64.toNat_zero] at hindex
      have hpos : 0 < front.length := List.length_pos_iff.mpr isFork.nonempty
      rw [isFork.split, List.getElem?_append_left (by omega)] at hi
      exact .inl ⟨hzero, hsame ▸ List.mem_map_of_mem
        (List.mem_append_left _ (List.mem_of_getElem? hi))⟩
    · exact .inr ⟨parent, hparent, hholds parent hparentHeld, hheight⟩
  · intro hash hstored
    rw [switched.blocks]
    exact htree.bodies hash (switched.blockBodies ▸ hstored)

end IsFork

/-- The height of the tip of a linked chain. -/
theorem Linked.tip_height {chain : List Link} (linked : Linked chain) {link : Link}
    (last : chain.getLast? = some link) : link.header.height.toNat = chain.length - 1 :=
  linked.height _ _ (by rw [← List.getLast?_eq_getElem?, last])

namespace Canonical

variable {s : ChainState}

/-- A state whose tip is the last link of a recorded chain. -/
theorem withTip {store' : Store} {chain' : List Link} {link : Link}
    (tree : Tree store' s.networkMagic s.chainId chain') (books : Books store' chain')
    (tip : store'.tip = chain'.getLast?.map Link.hash) (last : chain'.getLast? = some link) :
    Canonical (s.withTip store' link.hash link.header) chain' where
  tree := tree
  books := books
  tipHash := by
    rw [tipHashOf, last]
    rfl
  tipHeight := tree.linked.tip_height last
  tipDifficulty := by
    rw [last]
    rfl
  storeTip := tip

/-- **A prepared reorganization records the new chain.** -/
theorem prepareReorg (canonical : Canonical s chain) {newTip : Hash256} {now : Timestamp}
    {header : BlockHeader} {delta : ReorgDelta} {store' : Store}
    (prepared : s.prepareReorg newTip now = .ok (header, delta, store')) :
    ∃ fork front old new, IsFork s chain newTip fork front old new ∧
      Switched s.store store' (front ++ new.map Link.block) (IsFork.newLedger s front old new) ∧
      Canonical (s.withTip store' newTip header) (front ++ new.map Link.block) := by
  simp only [ChainState.prepareReorg, bind_eq_ok, pure_eq_ok, Prod.mk.injEq] at prepared
  obtain ⟨header', hheader, fork, hfork, -, -, store'', hswitch, rfl, -, rfl⟩ := prepared
  obtain ⟨front, old, new, isFork⟩ := canonical.exists_isFork hfork
  have hswitched := isFork.switched canonical hswitch
  obtain ⟨hconnects, -⟩ := (isFork.exists_switch_iff canonical).mp ⟨_, hswitch⟩
  refine ⟨fork, front, old, new, isFork, hswitched, ?_⟩
  obtain ⟨hlinked, htip, hheld⟩ := isFork.linked canonical.tree
  have hne : front ++ new.map Link.block ≠ [] := by simp [isFork.nonempty]
  have hlast := List.getLast?_eq_some_getLast hne
  -- the header that was read is that of the new tip
  obtain ⟨link, hhash, hsame, hlink, -, -⟩ := canonical.tree.of_requireHeader hheader
  have htipHash : ((front ++ new.map Link.block).getLast hne).hash = newTip := by
    rw [← htip, tipHashOf, hlast]
    rfl
  have hheaderEq := hlink.header_eq (hheld _ (List.getLast_mem hne)) (hhash.trans htipHash.symm)
  rw [← hsame, hheaderEq, ← htipHash]
  exact Canonical.withTip (isFork.tree canonical hswitched)
    (isFork.books canonical hconnects hswitched) hswitched.tip hlast

end Canonical

end DomProtocol
