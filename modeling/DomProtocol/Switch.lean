import DomProtocol.Branch
import DomProtocol.Connect

/-! # Switching to another branch

What a promotion does to the tables, on a state that records a chain. The old branch is undone and
the new one applied on overlays: the unspent outputs the overlays show are those after the common
part, except that an output created again on the old branch carries its first entry there
(`undoneLedger`); the kernel index they show is exactly that after the common part. The new branch
must connect to these (**`ConnectsAll`**), and no output that stays unspent may change anything but
its height (**`Compatible`**). -/

namespace DomProtocol

variable [Primitives]

open Ledger

/-! ## Blocks one after another -/

/-- The effects of blocks on the unspent outputs. -/
def utxoEffects (blocks : List Block) : List (Effect (Octets 33) UtxoEntry) :=
  blocks.map fun block => (Link.block block).utxoEffect

/-- The effects of blocks on the kernel index. -/
def kernelEffects (blocks : List Block) : List (Effect (Octets 33) Hash256) :=
  blocks.map fun block => (Link.block block).kernelEffect

/-- **Blocks that connect one after another.** -/
def ConnectsAll (maturity : UInt64) : List Block → (Octets 33 → Option UtxoEntry) →
    (Octets 33 → Option Hash256) → Prop
  | [], _, _ => True
  | block :: blocks, ledger, kernels =>
    Connects maturity ledger kernels block ∧
      ConnectsAll maturity blocks ((Link.block block).utxoEffect.apply ledger)
        ((Link.block block).kernelEffect.apply kernels)

namespace ConnectsAll

variable {maturity : UInt64} {blocks : List Block} {ledger : Octets 33 → Option UtxoEntry}
  {kernels : Octets 33 → Option Hash256}

variable (connects : ConnectsAll maturity blocks ledger kernels)
include connects

theorem outputsFit : FitsAll (utxoEffects blocks) ledger := by
  induction blocks generalizing ledger kernels with
  | nil => trivial
  | cons block blocks ih => exact ⟨connects.1.outputsFit, ih connects.2⟩

theorem kernelsFit : FitsAll (kernelEffects blocks) kernels := by
  induction blocks generalizing ledger kernels with
  | nil => trivial
  | cons block blocks ih => exact ⟨connects.1.kernelsFit, ih connects.2⟩

theorem excessNodup : ∀ block ∈ blocks, block.excessKeys.Nodup := by
  induction blocks generalizing ledger kernels with
  | nil => simp
  | cons block blocks ih =>
    exact List.forall_mem_cons.mpr ⟨connects.1.kernelsNodup, ih connects.2⟩

end ConnectsAll

variable {store : Store} {networkMagic : UInt32} {chainId : Hash256} {chain : List Link}

variable {blocks : List Block}

/-- **Connecting the new branch on the overlays.** -/
theorem foldlM_applyConnect_eq_ok (encoded : store.WellEncoded) {maturity : UInt64}
    (sound : AllSound networkMagic chainId blocks)
    {overlays overlays' : Overlays} :
    (blocks.map indexed).foldlM (applyConnect store maturity) overlays = .ok overlays' ↔
      ConnectsAll maturity blocks (overlays.utxoView store) (overlays.kernelView store) ∧
        overlays' = (blocks.map indexed).foldl Overlays.connected overlays := by
  induction blocks generalizing overlays with
  | nil =>
    rw [List.map_nil, List.foldlM_nil, pure_eq_ok, eq_comm]
    simp [ConnectsAll]
  | cons block blocks ih =>
    have hfacts := (sound block List.mem_cons_self).2.2
    have hrest : AllSound networkMagic chainId blocks := fun b hb =>
      sound b (List.mem_cons_of_mem _ hb)
    simp only [List.map_cons, List.foldlM_cons, bind_eq_ok, indexed,
      applyConnect_eq_ok encoded hfacts, List.foldl_cons, ConnectsAll]
    constructor
    · rintro ⟨_, ⟨hconnects, rfl⟩, hrun⟩
      obtain ⟨hall, heq⟩ := (ih hrest).mp hrun
      rw [utxoView_connected hfacts, kernelView_connected hconnects.kernelsNodup] at hall
      exact ⟨⟨hconnects, hall⟩, heq⟩
    · rintro ⟨⟨hconnects, hall⟩, heq⟩
      rw [← utxoView_connected hfacts, ← kernelView_connected hconnects.kernelsNodup] at hall
      exact ⟨_, ⟨hconnects, rfl⟩, (ih hrest).mpr ⟨hall, heq⟩⟩

/-- What the overlays show after the new branch. -/
theorem views_connected (store : Store) (sound : AllSound networkMagic chainId blocks)
    (nodup : ∀ block ∈ blocks, block.excessKeys.Nodup) (overlays : Overlays) :
    ((blocks.map indexed).foldl Overlays.connected overlays).utxoView store =
        run (utxoEffects blocks) (overlays.utxoView store) ∧
      ((blocks.map indexed).foldl Overlays.connected overlays).kernelView store =
        run (kernelEffects blocks) (overlays.kernelView store) := by
  induction blocks generalizing overlays with
  | nil => exact ⟨rfl, rfl⟩
  | cons block blocks ih =>
    have hfacts := (sound block List.mem_cons_self).2.2
    obtain ⟨hutxo, hkernel⟩ := ih (fun b hb => sound b (List.mem_cons_of_mem _ hb))
      (fun b hb => nodup b (List.mem_cons_of_mem _ hb)) (overlays.connected (indexed block))
    rw [List.map_cons, List.foldl_cons, hutxo, hkernel]
    rw [show indexed block = (blockId block, block) from rfl, utxoView_connected hfacts,
      kernelView_connected (nodup block List.mem_cons_self)]
    exact ⟨rfl, rfl⟩

/-! ## Where a spent output is found again -/

/-- A validated block is not read as an envelope. -/
theorem BlockFacts.not_envelope {block : Block} (facts : BlockFacts block chainId networkMagic) :
    (validateMainnetGenesisIdentity (WireFormat.encode block)).isOk = false := by
  cases hvalid : validateMainnetGenesisIdentity (WireFormat.encode block) with
  | error e => rfl
  | ok headerBytes =>
    have hencode : ∃ rest, (WireFormat.encode block : Bytes) =
        UInt8.ofNat block.header.version.toNat :: rest := ⟨_, rfl⟩
    obtain ⟨rest, hrest⟩ := hencode
    rw [hrest] at hvalid
    have hfirst := head_of_validateMainnetGenesisIdentity hvalid
    have hsyntax := facts.syntaxChecked
    simp only [validateHeaderSyntax, bind_eq_ok, rejectIf_eq_ok, not_not] at hsyntax
    obtain ⟨-, hversion, -⟩ := hsyntax
    rw [hversion] at hfirst
    rcases requiredBlockVersionForNetwork_cases networkMagic block.header.height with h | h
    all_goals
      rw [h] at hfirst
      exact absurd hfirst (by decide)

/-- **The canonical search finds the last creation below a height.** -/
theorem Tree.findCanonicalOutputEntry_eq (tree : Tree store networkMagic chainId chain)
    (k : Octets 33) {n : Nat} (bound : n ≤ chain.length) :
    findCanonicalOutputEntry store k n =
      .ok (lastCreation ((chain.take n).map Link.utxoEffect) k) := by
  induction n with
  | zero => rfl
  | succ n ih =>
    have hn : n < chain.length := by omega
    have hlength := tree.length_le
    have hlink : chain[n]? = some chain[n] := List.getElem?_eq_getElem hn
    have hmem := List.getElem_mem hn
    have hindex : store.heightIndex[UInt64.ofNat n]? = some chain[n].hash := by
      rw [tree.index, UInt64.toNat_ofNat_of_lt' (by norm_num; omega), hlink, Option.map_some]
    have hheight := tree.linked.height n _ hlink
    rw [findCanonicalOutputEntry, hindex, ih (by omega), List.take_add_one, hlink,
      Option.toList_some, List.map_append, List.map_singleton, lastCreation_concat]
    dsimp only
    rw [(tree.onChain _ hmem).body]
    dsimp only
    have hsound := tree.sound _ hmem
    cases hcase : chain[n] with
    | envelope hash header body =>
      rw [hcase] at hsound hheight
      obtain ⟨-, hzero, -, hvalid⟩ := hsound
      have hn0 : n = 0 := by
        rw [← hheight]
        exact (congrArg UInt64.toNat hzero).trans UInt64.toNat_zero
      rw [if_pos ⟨hn0, hvalid⟩]
      rfl
    | block block =>
      rw [hcase] at hsound
      have hfacts := hsound.2.2
      have hnot : ¬ (n = 0 ∧
          (validateMainnetGenesisIdentity (Link.block block).body).isOk = true) := by
        rintro ⟨-, hvalid⟩
        rw [show (Link.block block).body = WireFormat.encode block from rfl,
          hfacts.not_envelope] at hvalid
        cases hvalid
      rw [if_neg hnot, show (Link.block block).body = WireFormat.encode block from rfl,
        hfacts.fromBytes, mapError, ok_bind]
      show _ = Except.ok ((block.outputEntries.lookup k).or _)
      cases block.outputEntries.lookup k <;> rfl

/-- **The index of the old branch holds the first creations.** -/
theorem getElem?_disconnectOutputIndex
    (sound : AllSound networkMagic chainId blocks) (k : Octets 33) :
    (disconnectOutputIndex (blocks.reverse.map indexed))[k]? =
      firstCreation (utxoEffects blocks) k := by
  induction blocks with
  | nil => exact Table.getElem?_empty k
  | cons block blocks ih =>
    have hfacts := (sound block List.mem_cons_self).2.2
    have hnodup : (block.outputEntries.map Prod.fst).Nodup :=
      Link.map_fst_outputEntries block ▸ hfacts.outputsNodup
    have hstep : disconnectOutputIndex ((block :: blocks).reverse.map indexed) =
        Table.insertAll block.outputEntries
          (disconnectOutputIndex (blocks.reverse.map indexed)) := by
      rw [List.reverse_cons, List.map_append, disconnectOutputIndex, List.foldl_append]
      rfl
    rw [hstep, Table.getElem?_insertAll hnodup,
      ih fun b hb => sound b (List.mem_cons_of_mem _ hb)]
    show _ = ((Link.block block).utxoEffect :: utxoEffects blocks).findSome? _
    rw [List.findSome?_cons]
    show (block.outputEntries.lookup k).or _ = _
    cases h : block.outputEntries.lookup k with
    | none =>
      rw [Option.none_or]
      simp only [Link.utxoEffect, h]
      rfl
    | some entry => simp only [Link.utxoEffect, h, Option.some_or]

/-! ## Undoing the old branch -/

/-- The entry a spent output is given back: the first of its creations on the old branch, or else the
last below it. -/
def restoredEntry (front old : List (Effect (Octets 33) UtxoEntry)) (k : Octets 33) : UtxoEntry :=
  ((firstCreation old k).or (lastCreation front k)).getD ⟨0, false, []⟩

/-- The unspent outputs shown when the old branch is undone. -/
def undoneLedger (store : Store) (front : List Link) (old : List Block) :
    Octets 33 → Option UtxoEntry :=
  undoAll (restoredEntry (front.map Link.utxoEffect) (utxoEffects old)) (utxoEffects old)
    store.ledger

theorem map_utxoEffect_append (front : List Link) (blocks : List Block) :
    (front ++ blocks.map Link.block).map Link.utxoEffect =
      front.map Link.utxoEffect ++ utxoEffects blocks := by
  rw [List.map_append, List.map_map]
  rfl

theorem map_kernelEffect_append (front : List Link) (blocks : List Block) :
    (front ++ blocks.map Link.block).map Link.kernelEffect =
      front.map Link.kernelEffect ++ kernelEffects blocks := by
  rw [List.map_append, List.map_map]
  rfl

/-- What the overlays show after blocks are disconnected, the last one first. -/
theorem views_disconnected (store : Store) (sound : AllSound networkMagic chainId blocks)
    (nodup : ∀ block ∈ blocks, block.excessKeys.Nodup) (restored : Octets 33 → UtxoEntry)
    (anyHash : Octets 33 → Hash256) (overlays : Overlays) :
    ((blocks.reverse.map indexed).foldl
        (fun overlays indexed => overlays.disconnected restored indexed.2) overlays).utxoView
          store = undoAll restored (utxoEffects blocks) (overlays.utxoView store) ∧
      ((blocks.reverse.map indexed).foldl
        (fun overlays indexed => overlays.disconnected restored indexed.2) overlays).kernelView
          store = undoAll anyHash (kernelEffects blocks) (overlays.kernelView store) := by
  induction blocks with
  | nil => exact ⟨rfl, rfl⟩
  | cons block blocks ih =>
    have hfacts := (sound block List.mem_cons_self).2.2
    obtain ⟨hutxo, hkernel⟩ := ih (fun b hb => sound b (List.mem_cons_of_mem _ hb))
      (fun b hb => nodup b (List.mem_cons_of_mem _ hb))
    rw [List.reverse_cons, List.map_append, List.foldl_append, List.map_singleton,
      List.foldl_cons, List.foldl_nil]
    constructor
    · rw [show (indexed block).2 = block from rfl, utxoView_disconnected hfacts, hutxo]
      rfl
    · rw [show (indexed block).2 = block from rfl,
        kernelView_disconnected (nodup block List.mem_cons_self) restored anyHash, hkernel]
      rfl

/-- Undoing kernels restores the index exactly. -/
theorem undoAll_kernelEffects {front : List Link} {old : List Block}
    (fits : FitsAll ((front ++ old.map Link.block).map Link.kernelEffect) empty)
    (anyHash : Octets 33 → Hash256) :
    undoAll anyHash (kernelEffects old) (kernelsAfter (front ++ old.map Link.block)) =
      kernelsAfter front := by
  rw [map_kernelEffect_append] at fits
  obtain ⟨-, hold⟩ := fitsAll_append.mp fits
  have hunspent : ∀ x, ¬ SpentIn (kernelEffects old) x := by
    rintro x ⟨e, he, hx⟩
    obtain ⟨block, -, rfl⟩ := List.mem_map.mp he
    cases hx
  funext x
  rw [kernelsAfter, map_kernelEffect_append, run_append]
  obtain ⟨hnone, -, hkept⟩ := undoAll_eq anyHash hold (SameDomain.refl _) x
  by_cases habsent : run (front.map Link.kernelEffect) empty x = none
  · rw [hnone habsent, kernelsAfter, habsent]
  · rw [hkept habsent (hunspent x), run_of_not_spentIn hold habsent (hunspent x)]
    rfl

namespace IsFork

variable {s : ChainState} {newTip : Hash256} {fork : ChainState.Fork} {front : List Link}
  {old new : List Block}

variable (isFork : IsFork s chain newTip fork front old new) (canonical : Canonical s chain)
include isFork canonical

theorem sound_old : AllSound s.networkMagic s.chainId old := fun _ hmem =>
  canonical.tree.sound _ (isFork.split ▸ List.mem_append_right _ (List.mem_map_of_mem hmem))

theorem nodup_old : ∀ block ∈ old, block.excessKeys.Nodup := fun block hmem =>
  canonical.books.excessNodup (.block block)
    (isFork.split ▸ List.mem_append_right _ (List.mem_map_of_mem hmem))

/-- **The old branch can always be undone**, and this is what the overlays show then. -/
theorem exists_undone :
    ∃ undone, fork.disconnect.foldlM (applyDisconnect s.store fork.ancestorHeight.toNat
        (disconnectOutputIndex fork.disconnect)) Overlays.empty = .ok undone ∧
      undone.utxoView s.store = undoneLedger s.store front old ∧
      undone.kernelView s.store = kernelsAfter front := by
  have hpos : 0 < front.length := List.length_pos_iff.mpr isFork.nonempty
  have hheight : fork.ancestorHeight.toNat + 1 = front.length := by
    rw [isFork.height]
    omega
  have hfits := canonical.books.outputsFit
  rw [isFork.split, map_utxoEffect_append] at hfits
  have hsearch : ∀ k, findCanonicalOutputEntry s.store k (fork.ancestorHeight.toNat + 1) =
      .ok (lastCreation (front.map Link.utxoEffect) k) := by
    intro k
    have htake : chain.take front.length = front := by
      rw [isFork.split, List.take_left' rfl]
    rw [hheight, canonical.tree.findCanonicalOutputEntry_eq k (by
      rw [isFork.split, List.length_append]
      omega), htake]
  have hindex := fun k => getElem?_disconnectOutputIndex (isFork.sound_old canonical) k
  rw [← isFork.disconnect] at hindex
  have hstep : ∀ item ∈ fork.disconnect, ∀ acc acc', applyDisconnect s.store
      fork.ancestorHeight.toNat (disconnectOutputIndex fork.disconnect) acc item = .ok acc' ↔
        (∀ k ∈ item.2.inputKeys, (disconnectOutputIndex fork.disconnect)[k]?.or
          (lastCreation (front.map Link.utxoEffect) k) ≠ none) ∧
        acc' = acc.disconnected (restoredEntry (front.map Link.utxoEffect) (utxoEffects old))
          item.2 := by
    intro item hitem acc acc'
    rw [isFork.disconnect] at hitem
    obtain ⟨block, hblock, rfl⟩ := List.mem_map.mp hitem
    refine applyDisconnect_eq_ok
      (isFork.sound_old canonical block (List.mem_reverse.mp hblock)).2.2 hsearch
      fun k entry hentry => ?_
    rw [hindex] at hentry
    rw [restoredEntry, hentry, Option.getD_some]
  refine ⟨_, (foldlM_eq_ok_foldl hstep).mpr ⟨fun item hitem k hk => ?_, rfl⟩, ?_⟩
  · rw [isFork.disconnect] at hitem
    obtain ⟨block, hblock, rfl⟩ := List.mem_map.mp hitem
    rw [hindex]
    exact exists_creation_of_spentIn hfits
      ⟨_, List.mem_map_of_mem (List.mem_reverse.mp hblock), hk⟩
  · have hviews := views_disconnected s.store (isFork.sound_old canonical)
      (isFork.nodup_old canonical) (restoredEntry (front.map Link.utxoEffect) (utxoEffects old))
      (fun _ => Hash256.zero) Overlays.empty
    rw [← isFork.disconnect] at hviews
    refine ⟨hviews.1, hviews.2.trans ?_⟩
    have hkernels : Overlays.empty.kernelView s.store = kernelsAfter chain :=
      funext canonical.books.kernels
    have hkernelFits := canonical.books.kernelsFit
    rw [isFork.split] at hkernelFits
    rw [hkernels, isFork.split]
    exact undoAll_kernelEffects hkernelFits _

/-- The unspent outputs after the undo have the keys after the common part. -/
theorem sameDomain_undoneLedger :
    SameDomain (undoneLedger s.store front old) (unspentAfter front) := by
  have hfits := canonical.books.outputsFit
  have hdomain := canonical.books.domain
  rw [unspentAfter, isFork.split, map_utxoEffect_append, run_append] at hdomain
  rw [isFork.split, map_utxoEffect_append] at hfits
  exact sameDomain_undoAll _ (fitsAll_append.mp hfits).2 hdomain

/-- **With exact books, the undo shows the books of the common part**, rehomed. -/
theorem undoneLedger_eq_rehome (agree : s.store.ledger = unspentAfter chain) :
    undoneLedger s.store front old = rehome (utxoEffects old) (unspentAfter front) := by
  have hfits := canonical.books.outputsFit
  rw [isFork.split, map_utxoEffect_append] at hfits
  rw [undoneLedger, agree, unspentAfter, isFork.split, map_utxoEffect_append]
  refine undoAll_run_eq_rehome _ hfits fun k hspent => ?_
  obtain ⟨entry, hentry⟩ :=
    Option.ne_none_iff_exists'.mp (exists_creation_of_spentIn hfits hspent)
  rw [restoredEntry, hentry, Option.getD_some]

end IsFork

end DomProtocol
