import DomProtocol.Chain

/-! # Connecting and disconnecting a block

Both paths by which a block becomes canonical impose the same condition on the block, relative to
the unspent outputs and the kernel index it meets: **`Connects`**. On the direct path these are the
tables of the store (`commitDirectExtension_eq_ok`); during a reorganization they are read through
the overlays (`applyConnect_eq_ok`). In both cases the tables afterwards are the effect of the block
applied to the tables before.

Disconnecting undoes the effect of a block on the overlays (`applyDisconnect_eq_ok`). -/

namespace DomProtocol

open Table

variable [Primitives]

open Ledger

/-- **When a block connects** to unspent outputs and a kernel index. -/
structure Connects (maturity : UInt64) (ledger : Octets 33 → Option UtxoEntry)
    (kernels : Octets 33 → Option Hash256) (block : Block) : Prop where
  inputs : ∀ k ∈ block.inputKeys, ∃ entry, ledger k = some entry ∧
    (entry.isCoinbase = true → entry.isMatureFor block.header.height maturity = true)
  outputs : ∀ k ∈ block.outputKeys, ledger k = none
  kernels : ∀ x ∈ block.excessKeys, kernels x = none
  kernelsNodup : block.excessKeys.Nodup

namespace Connects

variable {maturity : UInt64} {ledger : Octets 33 → Option UtxoEntry}
  {kernels : Octets 33 → Option Hash256} {block : Block}

theorem outputsFit (connects : Connects maturity ledger kernels block) :
    (Link.block block).utxoEffect.Fits ledger := by
  refine ⟨fun k hk => ?_, fun k hk => ?_⟩
  · obtain ⟨entry, hentry, -⟩ := connects.inputs k hk
    simp [hentry]
  · exact connects.outputs k (Link.map_fst_outputEntries block ▸ hk)

theorem kernelsFit (connects : Connects maturity ledger kernels block) :
    (Link.block block).kernelEffect.Fits kernels := by
  refine ⟨fun k hk => absurd hk List.not_mem_nil, fun k hk => ?_⟩
  rw [Link.created_kernelEffect] at hk
  exact connects.kernels k hk

end Connects

variable {s : ChainState} {k : Octets 33} {u : Unit} {store : Store} {block : Block}
  {blockHash chainId : Hash256} {networkMagic : UInt32}

/-! ## The direct path -/

omit [Primitives] in
theorem lookup_storedEntries (entries : List (Octets 33 × UtxoEntry)) (k : Octets 33) :
    (storedEntries entries).lookup k = (entries.lookup k).map UtxoEntry.toBytes :=
  lookup_map_snd UtxoEntry.toBytes entries k

omit [Primitives] in
theorem map_fst_storedEntries (entries : List (Octets 33 × UtxoEntry)) :
    (storedEntries entries).map Prod.fst = entries.map Prod.fst := by
  simp [storedEntries, List.map_map, Function.comp_def]

theorem map_fst_extractKernelExcesses (block : Block) (hash : Hash256) :
    (extractKernelExcesses block hash).map Prod.fst = block.excessKeys := by
  simp [extractKernelExcesses, List.map_map, Function.comp_def]

/-- The store after a block extends the tip. -/
def Store.extended (store : Store) (block : Block) (blockHash : Hash256) : Store :=
  store.committed blockHash block.header.height (headerBytes block.header)
    (WireFormat.encode block) (storedEntries block.outputEntries) block.inputKeys
    (extractKernelExcesses block blockHash)

section

omit [Primitives]

theorem validateDirectInput_eq_ok (encoded : s.store.WellEncoded) {height : BlockHeight} :
    s.validateDirectInput height k = .ok u ↔ ∃ entry, s.store.ledger k = some entry ∧
      (entry.isCoinbase = true → entry.isMatureFor height s.coinbaseMaturity = true) := by
  simp only [ChainState.validateDirectInput, encoded.getUtxo_eq, ok_bind, bind_eq_ok, okOr_eq_ok,
    rejectIf_eq_ok, not_and, Bool.not_eq_false]

theorem validateDirectOutput_eq_ok (encoded : s.store.WellEncoded) :
    s.validateDirectOutput k = .ok u ↔ s.store.ledger k = none := by
  simp only [ChainState.validateDirectOutput, encoded.getUtxo_eq, ok_bind, rejectIf_eq_ok,
    Option.isSome_iff_ne_none, ne_eq, not_not]

theorem validateDirectKernel_eq_ok {x : Octets 33} :
    s.validateDirectKernel x = .ok u ↔ s.store.kernels[x]? = none := by
  simp only [ChainState.validateDirectKernel, rejectIf_eq_ok, contains_eq_isSome,
    Option.isSome_iff_ne_none, ne_eq, not_not]

end

/-- The store layer has nothing to object to a block that connects. -/
theorem canCommit_of_connects {maturity : UInt64} (encoded : store.WellEncoded)
    (facts : BlockFacts block chainId networkMagic)
    (fresh : store.blocks[blockHash]? = none ∧ store.blockBodies[blockHash]? = none)
    (connects : Connects maturity store.ledger (fun x => store.kernels[x]?) block) :
    store.CanCommit blockHash (storedEntries block.outputEntries) block.inputKeys
      (extractKernelExcesses block blockHash) := by
  have hkeys : (storedEntries block.outputEntries).map Prod.fst = block.outputKeys := by
    rw [map_fst_storedEntries, Link.map_fst_outputEntries]
  exact
    { newHeader := fresh.1
      newBody := fresh.2
      createdNodup := hkeys ▸ facts.outputsNodup
      createdNew := fun k hk => encoded.ledger_eq_none.mp (connects.outputs k (hkeys ▸ hk))
      spentNodup := facts.inputsNodup
      spentPresent := fun k hk => by
        obtain ⟨entry, hentry, -⟩ := connects.inputs k hk
        rw [getElem?_insertAll (hkeys ▸ facts.outputsNodup), encoded.utxos_eq, hentry]
        simp
      kernelsNodup := by
        rw [map_fst_extractKernelExcesses]
        exact connects.kernelsNodup
      kernelsNew := fun x hx => connects.kernels x (map_fst_extractKernelExcesses block _ ▸ hx) }

/-- **A direct extension is committed exactly when the block connects to the store.** -/
theorem commitDirectExtension_eq_ok {store' : Store} (encoded : s.store.WellEncoded)
    (facts : BlockFacts block chainId networkMagic) :
    s.commitDirectExtension block blockHash = .ok store' ↔
      (s.store.blocks[blockHash]? = none ∧ s.store.blockBodies[blockHash]? = none) ∧
        Connects s.coinbaseMaturity s.store.ledger (fun x => s.store.kernels[x]?) block ∧
        store' = s.store.extended block blockHash := by
  simp only [ChainState.commitDirectExtension, ChainState.validateDirectExtensionInputs,
    bind_eq_ok, forEach_eq_ok, validateDirectInput_eq_ok encoded,
    validateDirectOutput_eq_ok encoded, validateDirectKernel_eq_ok, toBytes_header,
    Except.ok.injEq, toBytes_of_valid (show WireFormat.Valid block from facts.limits),
    Store.commitBlock_eq_ok, buildUtxoChangeset]
  constructor
  · rintro ⟨-, hinputs, -, houtputs, -, hkernels, _, rfl, _, rfl, can, rfl⟩
    have hnodup := can.kernelsNodup
    rw [map_fst_extractKernelExcesses] at hnodup
    exact ⟨⟨can.newHeader, can.newBody⟩, ⟨hinputs, houtputs, hkernels, hnodup⟩, rfl⟩
  · rintro ⟨hfresh, connects, rfl⟩
    exact ⟨(), connects.inputs, (), connects.outputs, (), connects.kernels, _, rfl, _, rfl,
      canCommit_of_connects encoded facts hfresh connects, rfl⟩

/-- **The unspent outputs after an extension.** -/
theorem Store.ledger_extended (encoded : store.WellEncoded)
    (facts : BlockFacts block chainId networkMagic) :
    (store.extended block blockHash).WellEncoded ∧
      (store.extended block blockHash).ledger =
        (Link.block block).utxoEffect.apply store.ledger := by
  refine Store.WellEncoded.of_eq fun k => ?_
  show (eraseAll block.inputKeys
    (insertAll (storedEntries block.outputEntries) store.utxos))[k]? = _
  have hnodup : ((storedEntries block.outputEntries).map Prod.fst).Nodup := by
    rw [map_fst_storedEntries, Link.map_fst_outputEntries]
    exact facts.outputsNodup
  rw [getElem?_eraseAll, getElem?_insertAll hnodup, lookup_storedEntries,
    encoded.utxos_eq, ← Option.map_or]
  show _ = ((if k ∈ block.inputKeys then none else _ : Option UtxoEntry)).map UtxoEntry.toBytes
  split <;> rfl

/-- **The kernel index after an extension.** -/
theorem Store.kernels_extended (nodup : block.excessKeys.Nodup) (x : Octets 33) :
    (store.extended block (blockId block)).kernels[x]? =
      (Link.block block).kernelEffect.apply (fun x => store.kernels[x]?) x := by
  show (insertAll (extractKernelExcesses block (blockId block)) store.kernels)[x]? = _
  rw [getElem?_insertAll (by rwa [map_fst_extractKernelExcesses]),
    Effect.apply_of_not_spent List.not_mem_nil]
  rfl

/-! ## The overlays -/

namespace Overlays

/-- The unspent outputs read through the overlay. -/
def utxoView (overlays : Overlays) (store : Store) : Octets 33 → Option UtxoEntry :=
  Table.view overlays.utxo store.ledger

/-- The kernel index read through the overlay. -/
def kernelView (overlays : Overlays) (store : Store) : Octets 33 → Option Hash256 :=
  Table.view overlays.kernel fun x => store.kernels[x]?

/-- The overlays after a block is connected. -/
def connected (overlays : Overlays) (indexed : Hash256 × Block) : Overlays where
  utxo := Table.insertAll (indexed.2.outputEntries.map fun entry => (entry.1, some entry.2))
    (Table.insertAll (indexed.2.inputKeys.map (·, none)) overlays.utxo)
  kernel := Table.insertAll (indexed.2.excessKeys.map (·, some indexed.1)) overlays.kernel

/-- The overlays after a block is disconnected. -/
def disconnected (restored : Octets 33 → UtxoEntry) (overlays : Overlays) (block : Block) :
    Overlays where
  utxo := Table.insertAll (block.inputKeys.map fun k => (k, some (restored k)))
    (Table.insertAll (block.outputKeys.map (·, none)) overlays.utxo)
  kernel := Table.insertAll (block.excessKeys.map (·, none)) overlays.kernel

end Overlays

variable {overlay overlay' : Table (Octets 33) (Option UtxoEntry)}

section

omit [Primitives]

theorem lookupUtxo_eq {store : Store} (encoded : store.WellEncoded)
    (overlay : Table (Octets 33) (Option UtxoEntry)) (k : Octets 33) :
    lookupUtxo store overlay k = .ok (view overlay store.ledger k) := by
  unfold lookupUtxo view
  cases overlay[k]? with
  | some entry => rfl
  | none => exact encoded.getUtxo_eq k

theorem connectInput_eq_ok {store : Store} (encoded : store.WellEncoded) {maturity height : UInt64}
    {k : Octets 33} :
    connectInput store maturity height overlay k = .ok overlay' ↔
      (∃ entry, view overlay store.ledger k = some entry ∧
        (entry.isCoinbase = true → entry.isMatureFor height maturity = true)) ∧
        overlay' = overlay.insert k none := by
  simp only [connectInput, lookupUtxo_eq encoded, ok_bind, bind_eq_ok, okOr_eq_ok, rejectIf_eq_ok,
    not_and, Bool.not_eq_false, pure_eq_ok]
  constructor
  · rintro ⟨entry, hentry, -, hmature, rfl⟩
    exact ⟨⟨entry, hentry, hmature⟩, rfl⟩
  · rintro ⟨⟨entry, hentry, hmature⟩, rfl⟩
    exact ⟨entry, hentry, (), hmature, rfl⟩

theorem connectOutput_eq_ok {store : Store} (encoded : store.WellEncoded)
    {entry : Octets 33 × UtxoEntry} :
    connectOutput store overlay entry = .ok overlay' ↔
      view overlay store.ledger entry.1 = none ∧
        overlay' = overlay.insert entry.1 (some entry.2) := by
  rw [connectOutput, lookupUtxo_eq encoded, ok_bind, check_bind_eq_ok, rejectIf_eq_ok, pure_eq_ok,
    Option.not_isSome_iff_eq_none, @eq_comm _ overlay']

theorem connectKernel_eq_ok {store : Store} {blockHash : Hash256}
    {overlay overlay' : Table (Octets 33) (Option Hash256)} {x : Octets 33} :
    connectKernel store blockHash overlay x = .ok overlay' ↔
      view overlay (fun x => store.kernels[x]?) x = none ∧
        overlay' = overlay.insert x (some blockHash) := by
  rw [connectKernel, check_bind_eq_ok, rejectIf_eq_ok, pure_eq_ok, Option.not_isSome_iff_eq_none,
    @eq_comm _ overlay']
  rfl

end

section

variable {store : Store} {block : Block} {blockHash chainId : Hash256} {networkMagic : UInt32}

/-- The overlay of a connected block shows its effect. -/
theorem utxoView_connected (facts : BlockFacts block chainId networkMagic) (overlays : Overlays) :
    (overlays.connected (blockHash, block)).utxoView store =
      (Link.block block).utxoEffect.apply (overlays.utxoView store) := by
  have hnodup : ((block.outputEntries.map fun entry => (entry.1, some entry.2)).map
      Prod.fst).Nodup := by
    rw [List.map_map]
    exact Link.map_fst_outputEntries block ▸ facts.outputsNodup
  funext k
  show view (insertAll _ (insertAll _ _)) _ _ = _
  rw [view_insertAll hnodup, lookup_map_snd,
    view_insertAll_keys facts.inputsNodup fun _ => none]
  by_cases hspent : k ∈ block.inputKeys
  · have habsent : block.outputEntries.lookup k = none := by
      rw [lookup_eq_none, Link.map_fst_outputEntries]
      exact facts.cutThrough k hspent
    rw [Effect.apply_of_spent hspent, habsent, if_pos hspent]
    rfl
  · rw [Effect.apply_of_not_spent hspent, if_neg hspent]
    show _ = (block.outputEntries.lookup k).or _
    cases block.outputEntries.lookup k <;> rfl

theorem kernelView_connected (nodup : block.excessKeys.Nodup) (overlays : Overlays) :
    (overlays.connected (blockId block, block)).kernelView store =
      (Link.block block).kernelEffect.apply (overlays.kernelView store) := by
  funext x
  show view (insertAll _ _) _ _ = _
  rw [view_insertAll_keys nodup fun _ => some (blockId block),
    Effect.apply_of_not_spent List.not_mem_nil]
  show _ = ((block.excessKeys.map fun key => (key, blockId block)).lookup x).or _
  rw [lookup_map_key fun _ => blockId block]
  split <;> rfl

/-- **A block is connected on the overlays exactly when it connects to what they show.** -/
theorem applyConnect_eq_ok (encoded : store.WellEncoded) {maturity : UInt64}
    (facts : BlockFacts block chainId networkMagic) {overlays overlays' : Overlays} :
    applyConnect store maturity overlays (blockHash, block) = .ok overlays' ↔
      Connects maturity (overlays.utxoView store) (overlays.kernelView store) block ∧
        overlays' = overlays.connected (blockHash, block) := by
  have hspends : ∀ spent, block.inputKeys.foldlM
      (connectInput store maturity block.header.height) overlays.utxo = .ok spent ↔ _ := fun spent =>
    foldlM_insert_eq_ok (fun k => (k, none)) store.ledger
      (fun _ found => ∃ entry, found = some entry ∧ (entry.isCoinbase = true →
        entry.isMatureFor block.header.height maturity = true))
      (fun _ _ _ => connectInput_eq_ok encoded) (by simpa using facts.inputsNodup)
  have hcreates : ∀ overlay utxo, block.outputEntries.foldlM (connectOutput store) overlay =
      .ok utxo ↔ _ := fun overlay utxo =>
    foldlM_insert_eq_ok (fun entry => (entry.1, some entry.2)) store.ledger
      (fun _ found => found = none) (fun _ _ _ => connectOutput_eq_ok encoded)
      (Link.map_fst_outputEntries block ▸ facts.outputsNodup)
  have hkernels : ∀ kernel, block.excessKeys.foldlM (connectKernel store blockHash)
      overlays.kernel = .ok kernel ↔ _ := fun kernel =>
    foldlM_insertNew_eq_ok (fun x => store.kernels[x]?) blockHash
      (fun _ _ _ => connectKernel_eq_ok)
  -- what is created is not among what has just been spent, so the outputs are looked up as before
  have houtputs : (∀ entry ∈ block.outputEntries, view
        (insertAll (block.inputKeys.map fun k => (k, none)) overlays.utxo) store.ledger
        entry.1 = none) ↔
      ∀ k ∈ block.outputKeys, view overlays.utxo store.ledger k = none := by
    rw [← Link.map_fst_outputEntries, List.forall_mem_map]
    refine forall₂_congr fun entry hentry => ?_
    have hout : entry.1 ∈ block.outputKeys :=
      Link.map_fst_outputEntries block ▸ List.mem_map_of_mem hentry
    rw [view_insertAll_keys facts.inputsNodup fun _ => none,
      if_neg fun hspent => facts.cutThrough _ hspent hout]
  simp only [applyConnect, bind_eq_ok, hspends, hcreates, hkernels, pure_eq_ok]
  constructor
  · rintro ⟨_, ⟨hin, rfl⟩, _, ⟨hout, rfl⟩, _, ⟨⟨hnodup, hker⟩, rfl⟩, rfl⟩
    exact ⟨⟨hin, houtputs.mp hout, hker, hnodup⟩, rfl⟩
  · rintro ⟨connects, rfl⟩
    exact ⟨_, ⟨connects.inputs, rfl⟩, _, ⟨houtputs.mpr connects.outputs, rfl⟩, _,
      ⟨⟨connects.kernelsNodup, connects.kernels⟩, rfl⟩, rfl⟩

/-! ## Undoing -/

/-- The overlay of a disconnected block shows its effect undone. -/
theorem utxoView_disconnected (facts : BlockFacts block chainId networkMagic)
    (restored : Octets 33 → UtxoEntry) (overlays : Overlays) :
    (overlays.disconnected restored block).utxoView store =
      (Link.block block).utxoEffect.undo restored (overlays.utxoView store) := by
  funext k
  show view (insertAll _ (insertAll _ _)) _ _ = _
  rw [view_insertAll_keys facts.inputsNodup fun k => some (restored k),
    view_insertAll_keys facts.outputsNodup fun _ => none]
  unfold Effect.undo
  rw [show (Link.block block).utxoEffect.created = block.outputKeys from
    Link.map_fst_outputEntries block]
  rfl

theorem kernelView_disconnected (nodup : block.excessKeys.Nodup)
    (restored : Octets 33 → UtxoEntry) (anyHash : Octets 33 → Hash256) (overlays : Overlays) :
    (overlays.disconnected restored block).kernelView store =
      (Link.block block).kernelEffect.undo anyHash (overlays.kernelView store) := by
  funext x
  show view (insertAll _ _) _ _ = _
  rw [view_insertAll_keys nodup fun _ => none]
  unfold Effect.undo
  rw [Link.created_kernelEffect, if_neg (show x ∉ (Link.block block).kernelEffect.spends from
    List.not_mem_nil)]
  rfl

/-- **A block is disconnected exactly when everything it spent can be found.** -/
theorem applyDisconnect_eq_ok (facts : BlockFacts block chainId networkMagic) {ancestorHeight : Nat}
    {index : Table (Octets 33) UtxoEntry} {canonical : Octets 33 → Option UtxoEntry}
    {restored : Octets 33 → UtxoEntry}
    (search : ∀ k, findCanonicalOutputEntry store k (ancestorHeight + 1) = .ok (canonical k))
    (found : ∀ k entry, index[k]?.or (canonical k) = some entry → restored k = entry)
    {overlays overlays' : Overlays} :
    applyDisconnect store ancestorHeight index overlays (blockHash, block) = .ok overlays' ↔
      (∀ k ∈ block.inputKeys, index[k]?.or (canonical k) ≠ none) ∧
        overlays' = overlays.disconnected restored block := by
  have hresurrect : ∀ overlay k overlay',
      resurrect store ancestorHeight index overlay k = .ok overlay' ↔
        index[k]?.or (canonical k) ≠ none ∧ overlay' = overlay.insert k (some (restored k)) := by
    intro overlay k overlay'
    simp only [resurrect, search, ok_bind, bind_eq_ok, okOr_eq_ok, pure_eq_ok]
    constructor
    · rintro ⟨entry, hentry, rfl⟩
      exact ⟨by simp [hentry], by rw [found k entry hentry]⟩
    · rintro ⟨hsome, rfl⟩
      obtain ⟨entry, hentry⟩ := Option.ne_none_iff_exists'.mp hsome
      exact ⟨entry, hentry, by rw [found k entry hentry]⟩
  have hspends : ∀ overlay utxo, block.inputKeys.foldlM (resurrect store ancestorHeight index)
      overlay = .ok utxo ↔ _ := fun overlay utxo =>
    foldlM_insert_eq_ok (fun k => (k, some (restored k))) store.ledger
      (fun k _ => index[k]?.or (canonical k) ≠ none) hresurrect (by simpa using facts.inputsNodup)
  simp only [applyDisconnect, bind_eq_ok, hspends, pure_eq_ok]
  constructor
  · rintro ⟨_, ⟨hall, rfl⟩, rfl⟩
    exact ⟨hall, rfl⟩
  · rintro ⟨hall, rfl⟩
    exact ⟨_, ⟨hall, rfl⟩, rfl⟩

end

end DomProtocol
