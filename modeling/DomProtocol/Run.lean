import DomProtocol.Promote

/-! # Every call keeps the record

**`Canonical.connectBlock`** is the step lemma of the development: from a state that records a chain,
a call of `connect_block` with any block at any time leaves a state that records a chain, whether the
block is accepted or rejected. **`Moves`** says what the call can have done: nothing to the chain, an
extension by the block, or a reorganization. **`Canonical.run`** is the statement for whole runs. -/

namespace DomProtocol

open Table

variable [Primitives]

open Ledger

variable {chain : List Link} {s : ChainState}

variable {header : BlockHeader} {now : Timestamp} {hash : Hash256}

/-! ## Pruning -/

/-- The state without some stored blocks. -/
def ChainState.without (s : ChainState) (hashes : List Hash256) : ChainState :=
  { s with store := s.store.pruneKnownBlocks hashes }

/-- The record does not depend on the stored blocks, as long as they are a tree. -/
theorem Canonical.withBlocks (canonical : Canonical s chain) {blocks bodies : Table Hash256 Bytes}
    (tree : Tree { s.store with blocks := blocks, blockBodies := bodies } s.networkMagic s.chainId
      chain) :
    Canonical { s with store := { s.store with blocks := blocks, blockBodies := bodies } } chain :=
  { canonical with tree, books := { canonical.books with } }

/-- **Pruning keeps the record** and touches nothing but stored side blocks. -/
theorem Canonical.pruned {α : Type} (canonical : Canonical s chain) (result : α) :
    ∃ hashes, s.pruned result = (s.without hashes, .ok result) ∧
      Canonical (s.without hashes) chain ∧ ∀ hash ∈ hashes, hash ∉ chain.map Link.hash := by
  obtain ⟨hashes, hrun, hspared, hparents⟩ :=
    canonical.tree.exists_pruneHashes canonical.tipHash_mem canonical.length_le_tipHeight
  refine ⟨hashes, ?_, canonical.withBlocks (canonical.tree.prune hspared hparents), hspared⟩
  rw [ChainState.pruned, pruneRetainedSideChains, hrun, ok_bind]
  rfl

/-! ## Admission -/

/-- **A block that has passed all checks that do not depend on the tip.** -/
structure Admitted (s : ChainState) (block : Block) : Prop where
  sound : (Link.block block).Sound s.networkMagic s.chainId
  fresh : s.store.blocks[blockId block]? = none
  genesis : block.header.height = 0 → s.store.heightIndex[(0 : UInt64)]? = none ∨
    s.store.heightIndex[(0 : UInt64)]? = some (blockId block)
  parent : block.header.height ≠ 0 → ∃ missing header,
    s.store.requireHeader block.header.prevHash missing = .ok header ∧
      block.header.height.toNat = header.height.toNat + 1

/-- What an accepted header says about its parent. -/
theorem validateHeaderContext_parent
    (valid : s.validateHeaderContext header now = .ok ()) (above : header.height ≠ 0) :
    ∃ missing parent, s.store.requireHeader header.prevHash missing = .ok parent ∧
      header.height.toNat = parent.height.toNat + 1 := by
  simp only [ChainState.validateHeaderContext, ChainState.validateParent, if_neg above,
    ChainState.validateNextHeight, bind_eq_ok, okOr_eq_ok, rejectIf_eq_ok, not_not,
    checkedAdd_eq_some] at valid
  obtain ⟨_, ⟨parent, hparent, -, ⟨expected, hexpected, hheight⟩, -⟩, -⟩ := valid
  exact ⟨_, parent, hparent, by rw [hheight, hexpected]; rfl⟩

omit [Primitives] in
theorem validateGenesisIdentity_eq_ok
    (valid : s.validateGenesisIdentity header hash = .ok ()) (genesis : header.height = 0) :
    s.networkMagic ≠ networkMagicMainnet ∧ (s.store.heightIndex[(0 : UInt64)]? = none ∨
      s.store.heightIndex[(0 : UInt64)]? = some hash) := by
  rw [ChainState.validateGenesisIdentity, if_neg (not_not.mpr genesis)] at valid
  simp only [bind_eq_ok, rejectIf_eq_ok] at valid
  obtain ⟨-, hmagic, -, -, hindex⟩ := valid
  refine ⟨hmagic, ?_⟩
  cases hexisting : s.store.heightIndex[(0 : UInt64)]? with
  | none => exact .inl rfl
  | some existing =>
    rw [hexisting] at hindex
    simp only [rejectIf_eq_ok, not_not] at hindex
    exact .inr (by rw [hindex])

variable {block : Block}

/-- **What admission establishes.** -/
theorem admitted_of_admitBlock
    (admits : s.admitBlock block now = .ok (some hash)) :
    hash = blockId block ∧ Admitted s block := by
  simp only [ChainState.admitBlock, toBytes_header, ok_bind, bind_eq_ok] at admits
  obtain ⟨hash', hidentifier, hadmit⟩ := admits
  split at hadmit
  · cases hadmit
  rename_i hfresh
  simp only [bind_eq_ok, pure_eq_ok, Option.some.injEq, ChainState.validateNewBlock,
    ChainState.validateBlockBody, mapError_eq_ok] at hadmit
  obtain ⟨⟨⟩, ⟨-, -, ⟨⟩, hgenesis, -, -, ⟨⟩, hcontext, hvalid⟩, -, -, rfl⟩ := hadmit
  have hordinary : ¬ (s.networkMagic = networkMagicMainnet ∧ block.header.height = 0) :=
    fun ⟨hmagic, hzero⟩ => (validateGenesisIdentity_eq_ok hgenesis hzero).1 hmagic
  obtain ⟨-, rfl⟩ := (canonicalHeaderIdentifier_eq_ok hordinary).mp hidentifier
  rw [contains_eq_isSome, Option.isSome_iff_ne_none, not_not] at hfresh
  exact ⟨rfl, ⟨hordinary, hidentifier, validateBlockForNetwork_facts hvalid⟩, hfresh,
    fun hzero => (validateGenesisIdentity_eq_ok hgenesis hzero).2,
    validateHeaderContext_parent hcontext⟩

namespace Admitted

/-- Genesis is only admitted to an empty chain. -/
theorem chain_eq_nil (admitted : Admitted s block) (canonical : Canonical s chain)
    (genesis : block.header.height = 0) : chain = [] := by
  by_contra hne
  have hpos : 0 < chain.length := List.length_pos_iff.mpr hne
  have hindex : s.store.heightIndex[(0 : UInt64)]? = some chain[0].hash := by
    rw [canonical.tree.index, UInt64.toNat_zero, List.getElem?_eq_getElem hpos, Option.map_some]
  rcases admitted.genesis genesis with h | h
  · rw [h] at hindex
    cases hindex
  · rw [hindex, Option.some.injEq] at h
    have hheld := (canonical.tree.onChain _ (List.getElem_mem hpos)).header
    rw [h, admitted.fresh] at hheld
    cases hheld

/-- The parent of a block above genesis is held. -/
theorem exists_parent (admitted : Admitted s block)
    (canonical : Canonical s chain) (above : block.header.height ≠ 0) :
    ∃ parent : Link, parent.hash = block.header.prevHash ∧ s.store.Holds parent ∧
      block.header.height.toNat = parent.header.height.toNat + 1 := by
  obtain ⟨missing, header, hheader, hheight⟩ := admitted.parent above
  obtain ⟨parent, hhash, rfl, hheld, -, -⟩ := canonical.tree.of_requireHeader hheader
  exact ⟨parent, hhash, hheld, hheight⟩

end Admitted

/-! ## Storing a block -/

/-- **A tree with one more block.** -/
theorem Tree.insert {store store' : Store} {networkMagic : UInt32} {chainId : Hash256}
    {chain' : List Link} (tree : Tree store networkMagic chainId chain)
    (sound : (Link.block block).Sound networkMagic chainId)
    (fresh : store.blocks[blockId block]? = none)
    (blocks : store'.blocks = store.blocks.insert (blockId block) (headerBytes block.header))
    (bodies : store'.blockBodies =
      store.blockBodies.insert (blockId block) (WireFormat.encode block))
    (index : ∀ height : UInt64, store'.heightIndex[height]? =
      chain'[height.toNat]?.map Link.hash)
    (grows : chain' = chain ∨ chain' = chain ++ [.block block]) (linked : Linked chain')
    (attached : (block.header.height = 0 ∧ blockId block ∈ chain'.map Link.hash) ∨
      ∃ parent : Link, parent.hash = block.header.prevHash ∧ store.Holds parent ∧
        block.header.height.toNat = parent.header.height.toNat + 1) :
    Tree store' networkMagic chainId chain' := by
  have hnew : store'.Holds (.block block) := by
    constructor
    · show store'.blocks[blockId block]? = some (headerBytes block.header)
      rw [blocks, getElem?_insert, if_pos rfl]
    · show store'.blockBodies[blockId block]? = some (WireFormat.encode block)
      rw [bodies, getElem?_insert, if_pos rfl]
  have hne : ∀ link : Link, store.Holds link → blockId block ≠ link.hash := by
    intro link hlink heq
    have hheader := hlink.header
    rw [← heq, fresh] at hheader
    cases hheader
  have hholds : ∀ link : Link, store.Holds link → store'.Holds link := by
    intro link hlink
    have hdiff := hne link hlink
    constructor
    · rw [blocks, getElem?_insert, if_neg hdiff, hlink.header]
    · rw [bodies, getElem?_insert, if_neg hdiff, hlink.body]
  have hsub : ∀ hash ∈ chain.map Link.hash, hash ∈ chain'.map Link.hash := by
    intro hash hmem
    rcases grows with rfl | rfl
    · exact hmem
    · rw [List.map_append]
      exact List.mem_append_left _ hmem
  have hmember : ∀ link ∈ chain', link ∈ chain ∨ link = .block block := by
    intro link hmem
    rcases grows with rfl | rfl
    · exact .inl hmem
    · simpa using hmem
  refine ⟨index, fun link hmem => ?_, fun link hmem => ?_, ?_, ?_, linked⟩
  · rcases hmember link hmem with h | rfl
    · exact hholds link (tree.onChain link h)
    · exact hnew
  · rcases hmember link hmem with h | rfl
    · exact tree.sound link h
    · exact sound
  · intro hash bytes hstored
    rw [blocks, getElem?_insert] at hstored
    split at hstored
    · rename_i heq
      refine ⟨.block block, heq, hnew, sound, ?_⟩
      rcases attached with h | ⟨parent, hparent, hparentHeld, hheight⟩
      · exact .inl h
      · exact .inr ⟨parent, hparent, hholds parent hparentHeld, hheight⟩
    · obtain ⟨link, rfl, hlink, hsound, hattached⟩ := tree.held hash bytes hstored
      refine ⟨link, rfl, hholds link hlink, hsound, ?_⟩
      rcases hattached with ⟨hzero, hmem⟩ | ⟨parent, hparent, hparentHeld, hheight⟩
      · exact .inl ⟨hzero, hsub _ hmem⟩
      · exact .inr ⟨parent, hparent, hholds parent hparentHeld, hheight⟩
  · intro hash hstored
    rw [bodies, getElem?_insert] at hstored
    rw [blocks, getElem?_insert]
    split at hstored
    · rename_i heq
      rw [if_pos heq]
      simp
    · rename_i heq
      rw [if_neg heq]
      exact tree.bodies hash hstored

/-! ## The three ways of connecting -/

/-- The tip of a nonempty chain is held. -/
theorem Canonical.exists_tip (canonical : Canonical s chain) (nonempty : chain ≠ []) :
    ∃ link, chain[chain.length - 1]? = some link ∧ s.tipHash = link.hash ∧ s.store.Holds link := by
  obtain ⟨link, hlink, htip⟩ := Tree.getElem?_of_tipHashOf (List.append_nil chain).symm nonempty
  exact ⟨link, hlink, canonical.tipHash.trans htip,
    canonical.tree.onChain link (List.mem_of_getElem? hlink)⟩

/-- A block on top of the tip fits on top of the chain. -/
theorem Admitted.linked (admitted : Admitted s block) (canonical : Canonical s chain)
    (direct : block.header.height = 0 ∨ block.header.prevHash = s.tipHash) :
    Linked (chain ++ [.block block]) ∧ block.header.height.toNat = chain.length := by
  by_cases hzero : block.header.height = 0
  · obtain rfl := admitted.chain_eq_nil canonical hzero
    have hheight : block.header.height.toNat = ([] : List Link).length := by
      rw [hzero, UInt64.toNat_zero, List.length_nil]
    exact ⟨Linked.nil.concat hheight fun h => absurd rfl h, hheight⟩
  · have hprev := direct.resolve_left hzero
    obtain ⟨parent, hparent, hheld, hheight⟩ := admitted.exists_parent canonical hzero
    have hne : chain ≠ [] := by
      -- an empty chain has the zero hash as tip, and only genesis points at it
      rintro rfl
      refine hzero ((admitted.sound.height_eq_zero_iff).mpr ?_)
      rw [Link.header_block, hprev, canonical.tipHash]
      rfl
    obtain ⟨tip, htip, htipHash, htipHeld⟩ := canonical.exists_tip hne
    have hheader := hheld.header_eq htipHeld (hparent.trans (hprev.trans htipHash))
    have hpos : 0 < chain.length := List.length_pos_iff.mpr hne
    have hlength : block.header.height.toNat = chain.length := by
      rw [hheight, hheader, canonical.tree.linked.height _ _ htip]
      omega
    exact ⟨canonical.tree.linked.concat hlength fun _ => hprev.trans canonical.tipHash, hlength⟩

/-- **A direct extension records the extended chain.** -/
theorem Canonical.extended (canonical : Canonical s chain) (admitted : Admitted s block)
    (direct : block.header.height = 0 ∨ block.header.prevHash = s.tipHash)
    (connects : Connects s.coinbaseMaturity s.store.ledger (fun x => s.store.kernels[x]?) block) :
    Canonical (s.withTip (s.store.extended block (blockId block)) (blockId block) block.header)
      (chain ++ [.block block]) := by
  obtain ⟨hlinked, hheight⟩ := admitted.linked canonical direct
  have hfacts := admitted.sound.2.2
  have hbooks := canonical.books
  have hkernels : (fun x => s.store.kernels[x]?) = kernelsAfter chain := funext hbooks.kernels
  obtain ⟨hencoded, hledger⟩ : (s.store.extended block (blockId block)).WellEncoded ∧ _ :=
    Store.ledger_extended hbooks.encoded hfacts
  have hindex : ∀ height : UInt64,
      (s.store.extended block (blockId block)).heightIndex[height]? =
        (chain ++ [.block block])[height.toNat]?.map Link.hash := by
    intro height
    show (s.store.heightIndex.insert block.header.height (blockId block))[height]? = _
    rw [getElem?_insert, canonical.tree.index]
    by_cases heq : block.header.height = height
    · rw [if_pos heq, ← heq, hheight, List.getElem?_concat_length]
      rfl
    · have hne : height.toNat ≠ chain.length := fun h =>
        heq (UInt64.toNat_inj.mp (hheight.trans h.symm))
      rw [if_neg heq]
      rcases Nat.lt_or_gt_of_ne hne with hlt | hgt
      · rw [List.getElem?_append_left hlt]
      · rw [List.getElem?_eq_none (by omega), List.getElem?_eq_none (by simp; omega)]
  have hlast : (chain ++ [Link.block block]).getLast? = some (Link.block block) := by simp
  refine Canonical.withTip ?_ ?_ (by simp; rfl) hlast
  · refine canonical.tree.insert admitted.sound admitted.fresh rfl rfl hindex (.inr rfl) hlinked ?_
    by_cases hzero : block.header.height = 0
    · exact .inl ⟨hzero, by simp⟩
    · exact .inr (admitted.exists_parent canonical hzero)
  · have hfits : (Link.block block).utxoEffect.Fits (unspentAfter chain) :=
      hbooks.domain.fits connects.outputsFit
    refine ⟨hencoded, ?_, ?_, ?_, ?_, fun x => ?_⟩
    · rw [List.map_append, List.map_singleton, fitsAll_append]
      exact ⟨hbooks.outputsFit, hfits, trivial⟩
    · rw [hledger, unspentAfter, List.map_append, List.map_singleton, run_append]
      exact hbooks.domain.apply _
    · intro link hmem
      rcases mem_snoc.mp hmem with h | rfl
      · exact hbooks.excessNodup link h
      · exact connects.kernelsNodup
    · rw [List.map_append, List.map_singleton, fitsAll_append]
      have hfits := connects.kernelsFit
      rw [hkernels] at hfits
      exact ⟨hbooks.kernelsFit, hfits, trivial⟩
    · rw [Store.kernels_extended connects.kernelsNodup, kernelsAfter, List.map_append,
        List.map_singleton, run_append, hkernels]
      rfl

/-- The state with a side block stored. -/
def ChainState.withSideBlock (s : ChainState) (block : Block) : ChainState :=
  { s with store := { s.store with
      blocks := s.store.blocks.insert (blockId block) (headerBytes block.header)
      blockBodies := s.store.blockBodies.insert (blockId block) (WireFormat.encode block) } }

/-- **Storing a side block keeps the record.** -/
theorem Canonical.storeSideBlock (canonical : Canonical s chain) (admitted : Admitted s block)
    (side : ¬ (block.header.height = 0 ∨ block.header.prevHash = s.tipHash)) :
    s.storeSideBlock block (blockId block) = .ok (s.withSideBlock block).store ∧
      Canonical (s.withSideBlock block) chain := by
  have hbody : s.store.blockBodies[blockId block]? = none := by
    by_contra h
    exact canonical.tree.bodies _ h admitted.fresh
  constructor
  · rw [ChainState.storeSideBlock, toBytes_header, ok_bind,
      toBytes_of_valid (show WireFormat.Valid block from admitted.sound.2.2.limits), ok_bind,
      Store.storeKnownBlock, Store.putBlock_eq_ok]
    exact ⟨⟨admitted.fresh, hbody⟩, rfl⟩
  · have htree : Tree (s.withSideBlock block).store s.networkMagic s.chainId chain :=
      canonical.tree.insert admitted.sound admitted.fresh rfl rfl canonical.tree.index (.inl rfl)
        canonical.tree.linked (.inr (admitted.exists_parent canonical fun h => side (.inl h)))
    exact canonical.withBlocks htree

/-! ## What a call does -/

/-- Whether a block is meant to extend the tip. -/
def Direct (s : ChainState) (block : Block) : Prop :=
  block.header.height = 0 ∨ block.header.prevHash = s.tipHash

/-- **What a call of `connect_block` can do** to a state that records a chain: the state it leaves,
its result, and the chain that the state then records. -/
inductive Moves (s : ChainState) (chain : List Link) (block : Block) (now : Timestamp) :
    ChainState → Result ConnectResult → List Link → Prop where
  | rejected (e : DomError) : Moves s chain block now s (.error e) chain
  | known (hash : Hash256)
      (identifier : canonicalHeaderIdentifier s.networkMagic (headerBytes block.header) = .ok hash)
      (stored : s.store.blocks[hash]? ≠ none) :
      Moves s chain block now s (.ok .AlreadyHave) chain
  | extended (hashes : List Hash256) (admitted : Admitted s block) (direct : Direct s block)
      (outranks : s.outranksTip block.header (blockId block) = true)
      (connects : Connects s.coinbaseMaturity s.store.ledger (fun x => s.store.kernels[x]?) block)
      (spared : ∀ hash ∈ hashes, hash ∉ (chain ++ [Link.block block]).map Link.hash) :
      Moves s chain block now
        ((s.withTip (s.store.extended block (blockId block)) (blockId block) block.header).without
          hashes) (.ok .BestChain) (chain ++ [.block block])
  | stored (hashes : List Hash256) (result : Result ConnectResult) (admitted : Admitted s block)
      (side : ¬ Direct s block) (spared : ∀ hash ∈ hashes, hash ∉ chain.map Link.hash)
      (outcome : (s.outranksTip block.header (blockId block) = false ∧ result = .ok .SideChain) ∨
        ∃ e, ((s.withSideBlock block).without hashes).prepareReorg (blockId block) now = .error e ∧
          result = .error e) :
      Moves s chain block now ((s.withSideBlock block).without hashes) result chain
  | reorganized (hashes hashes' : List Hash256) (admitted : Admitted s block)
      (side : ¬ Direct s block) (outranks : s.outranksTip block.header (blockId block) = true)
      (spared : ∀ hash ∈ hashes, hash ∉ chain.map Link.hash)
      {kept : ChainState} (keeps : kept = (s.withSideBlock block).without hashes)
      (canonical : Canonical kept chain) {delta : ReorgDelta} {store' : Store}
      (prepared : kept.prepareReorg (blockId block) now = .ok (block.header, delta, store'))
      {fork : ChainState.Fork} {front : List Link} {old new : List Block}
      (isFork : IsFork kept chain (blockId block) fork front old new)
      (switched : Switched kept.store store' (front ++ new.map Link.block)
        (IsFork.newLedger kept front old new))
      (spared' : ∀ hash ∈ hashes', hash ∉ (front ++ new.map Link.block).map Link.hash) :
      Moves s chain block now ((kept.withTip store' (blockId block) block.header).without hashes')
        (.ok (.Reorg delta)) (front ++ new.map Link.block)

namespace Canonical

variable {block : Block} {now : Timestamp}

/-- What a direct extension does. -/
theorem connectDirect (canonical : Canonical s chain) (admitted : Admitted s block)
    (direct : Direct s block) :
    ∃ s' result chain', s.connectDirect block (blockId block) = (s', result) ∧
      Canonical s' chain' ∧ Moves s chain block now s' result chain' := by
  rw [ChainState.connectDirect]
  cases hprepared : s.prepareDirectExtension block (blockId block) with
  | error e => exact ⟨s, .error e, chain, rfl, canonical, .rejected e⟩
  | ok store =>
    simp only [ChainState.prepareDirectExtension, bind_eq_ok, rejectIf_eq_ok,
      Bool.not_eq_false] at hprepared
    obtain ⟨-, houtranks, hcommit⟩ := hprepared
    obtain ⟨-, hconnects, rfl⟩ := (commitDirectExtension_eq_ok canonical.books.encoded
      admitted.sound.2.2).mp hcommit
    have hextended := canonical.extended admitted direct hconnects
    obtain ⟨hashes, hrun, hcanonical, hspared⟩ := hextended.pruned ConnectResult.BestChain
    exact ⟨_, _, _, hrun, hcanonical,
      .extended hashes admitted direct houtranks hconnects hspared⟩

/-- The header of a side block is read back as it was stored. -/
theorem header_of_withSideBlock {hashes : List Hash256}
    (canonical : Canonical ((s.withSideBlock block).without hashes) chain) {missing : DomError}
    {header : BlockHeader}
    (read : ((s.withSideBlock block).without hashes).store.requireHeader (blockId block) missing =
      .ok header) : header = block.header := by
  obtain ⟨link, hhash, rfl, hlink, -, -⟩ := canonical.tree.of_requireHeader read
  have hbytes := hlink.header
  rw [hhash] at hbytes
  change (eraseAll hashes (s.store.blocks.insert (blockId block) _))[blockId block]? =
    _ at hbytes
  rw [getElem?_eraseAll, getElem?_insert, if_pos rfl] at hbytes
  split at hbytes
  · cases hbytes
  · exact (headerBytes_injective (Option.some.inj hbytes)).symm

/-- What storing a side block does. -/
theorem connectSide (canonical : Canonical s chain) (admitted : Admitted s block)
    (side : ¬ Direct s block) :
    ∃ s' result chain', s.connectSide block (blockId block) now = (s', result) ∧
      Canonical s' chain' ∧ Moves s chain block now s' result chain' := by
  obtain ⟨hstore, hcanonical⟩ := canonical.storeSideBlock admitted side
  obtain ⟨hashes, hprune, hkept, hspared⟩ := hcanonical.pruned ()
  have hpruned : ({ s with store := (s.withSideBlock block).store } : ChainState).pruned () =
    ((s.withSideBlock block).without hashes, .ok ()) := hprune
  rw [ChainState.connectSide, hstore]
  simp only [hpruned]
  by_cases houtranks : s.outranksTip block.header (blockId block) = true
  · rw [if_pos houtranks, ChainState.promoteHeavierKnownTip]
    cases hprepared : ((s.withSideBlock block).without hashes).prepareReorg (blockId block) now with
    | error e =>
      exact ⟨(s.withSideBlock block).without hashes, .error e, chain, rfl, hkept,
        .stored hashes _ admitted side hspared (.inr ⟨e, hprepared, rfl⟩)⟩
    | ok prepared =>
      obtain ⟨header, delta, store'⟩ := prepared
      obtain ⟨fork, front, old, new, hfork, hswitched, hnew⟩ := hkept.prepareReorg hprepared
      have hread := hprepared
      simp only [ChainState.prepareReorg, bind_eq_ok, pure_eq_ok, Prod.mk.injEq] at hread
      obtain ⟨header', hread, -, -, -, -, -, -, rfl, -, -⟩ := hread
      obtain rfl := hkept.header_of_withSideBlock hread
      obtain ⟨hashes', hprune', hcanonical', hspared'⟩ := hnew.pruned delta
      refine ⟨_, .ok (.Reorg delta), _, ?_, hcanonical', .reorganized hashes hashes' admitted side
        houtranks hspared rfl hkept hprepared hfork hswitched hspared'⟩
      simp only [hprune']
  · rw [if_neg houtranks]
    exact ⟨(s.withSideBlock block).without hashes, _, _, rfl, hkept, .stored hashes _ admitted side
      hspared (.inl ⟨Bool.eq_false_iff.mpr houtranks, rfl⟩)⟩

/-- **Every call of `connect_block` keeps the record.** -/
theorem connectBlock (canonical : Canonical s chain) (block : Block) (now : Timestamp) :
    ∃ s' result chain', s.connectBlock block now = (s', result) ∧
      Canonical s' chain' ∧ Moves s chain block now s' result chain' := by
  unfold ChainState.connectBlock
  cases hadmit : s.admitBlock block now with
  | error e => exact ⟨s, .error e, chain, rfl, canonical, .rejected e⟩
  | ok found =>
    cases found with
    | none =>
      refine ⟨s, .ok .AlreadyHave, chain, rfl, canonical, ?_⟩
      simp only [ChainState.admitBlock, toBytes_header, ok_bind, bind_eq_ok] at hadmit
      obtain ⟨hash, hidentifier, hadmit⟩ := hadmit
      split at hadmit
      · rename_i hstored
        rw [contains_eq_isSome, Option.isSome_iff_ne_none] at hstored
        exact .known hash hidentifier hstored
      · simp only [bind_eq_ok, pure_eq_ok, reduceCtorEq, and_false, exists_false] at hadmit
    | some hash =>
      obtain ⟨rfl, admitted⟩ := admitted_of_admitBlock hadmit
      by_cases hdirect : block.header.height = 0 ∨ block.header.prevHash = s.tipHash
      · simp only [if_pos hdirect]
        exact canonical.connectDirect admitted hdirect
      · simp only [if_neg hdirect]
        exact canonical.connectSide admitted hdirect

end Canonical

variable {store : Store} {networkMagic : UInt32} {genesisHash : Hash256}

/-! ## Runs -/

/-- A delivery: a block and the time at which it arrives. -/
abbrev Delivery := Block × Timestamp

/-- The state after some deliveries. -/
def ChainState.deliver (s : ChainState) (deliveries : List Delivery) : ChainState :=
  deliveries.foldl (fun s delivery => (s.connectBlock delivery.1 delivery.2).1) s

@[simp] theorem ChainState.deliver_cons (s : ChainState) (delivery : Delivery)
    (deliveries : List Delivery) :
    s.deliver (delivery :: deliveries) =
      (s.connectBlock delivery.1 delivery.2).1.deliver deliveries := by
  simp only [ChainState.deliver, List.foldl_cons]

/-- The state over an empty store. -/
def ChainState.fresh (genesisHash : Hash256) (networkMagic : UInt32) : ChainState :=
  .atTip .empty Hash256.zero 0 0 genesisHash networkMagic

/-- The books of a chain that leaves nothing unspent and indexes no kernel. -/
theorem Books.of_empty (utxos : store.utxos = ∅) (kernels : store.kernels = ∅)
    (outputsFit : FitsAll (chain.map Link.utxoEffect) empty)
    (unspent : ∀ k, unspentAfter chain k = none)
    (excessNodup : ∀ link ∈ chain, link.excessKeys.Nodup)
    (kernelsFit : FitsAll (chain.map Link.kernelEffect) empty)
    (indexed : ∀ x, kernelsAfter chain x = none) : Books store chain where
  encoded := fun k bytes h => by
    rw [utxos, getElem?_empty] at h
    cases h
  outputsFit := outputsFit
  domain := fun k => by
    rw [Store.ledger, utxos, getElem?_empty, unspent]
    exact Iff.rfl
  excessNodup := excessNodup
  kernelsFit := kernelsFit
  kernels := fun x => by rw [kernels, getElem?_empty, indexed]

/-- The empty store records the empty chain. -/
theorem Canonical.fresh (genesisHash : Hash256) (networkMagic : UInt32) :
    Canonical (.fresh genesisHash networkMagic) [] where
  tree :=
    { index := fun height => getElem?_empty height
      onChain := fun _ h => absurd h List.not_mem_nil
      sound := fun _ h => absurd h List.not_mem_nil
      held := fun hash _ h => absurd ((getElem?_empty hash).symm.trans h) (nomatch ·)
      bodies := fun hash h => absurd (getElem?_empty hash) h
      linked := .nil }
  books := .of_empty rfl rfl trivial (fun _ => rfl) (fun _ h => absurd h List.not_mem_nil)
    trivial fun _ => rfl
  tipHash := rfl
  tipHeight := rfl
  tipDifficulty := rfl
  storeTip := rfl

/-- A store that holds a genesis link and nothing else. -/
theorem Tree.singleton {chainId : Hash256} {link : Link}
    (sound : link.Sound networkMagic chainId) (genesis : link.header.height = 0)
    (blocks : store.blocks = (∅ : Table Hash256 Bytes).insert link.hash (headerBytes link.header))
    (bodies : store.blockBodies = (∅ : Table Hash256 Bytes).insert link.hash link.body)
    (index : store.heightIndex = (∅ : Table UInt64 Hash256).insert 0 link.hash) :
    Tree store networkMagic chainId [link] := by
  have hheld : store.Holds link := by
    constructor
    · rw [blocks, getElem?_insert, if_pos rfl]
    · rw [bodies, getElem?_insert, if_pos rfl]
  refine ⟨fun height => ?_, fun member h => ?_, fun member h => ?_, fun hash bytes h => ?_,
    fun hash h => ?_, Linked.nil.concat (by rw [genesis]; rfl) fun h => absurd rfl h⟩
  · rw [index, getElem?_insert, getElem?_empty]
    by_cases hzero : (0 : UInt64) = height
    · rw [if_pos hzero, ← hzero]
      rfl
    · have hne : height.toNat ≠ 0 := fun h => hzero (UInt64.toNat_inj.mp h.symm)
      rw [if_neg hzero, List.getElem?_eq_none (by rw [List.length_singleton]; omega)]
      rfl
  · rw [List.mem_singleton.mp h]
    exact hheld
  · rw [List.mem_singleton.mp h]
    exact sound
  · rw [blocks, getElem?_insert, getElem?_empty] at h
    split at h
    · rename_i heq
      exact ⟨link, heq, hheld, sound, .inl ⟨genesis, by simp⟩⟩
    · cases h
  · rw [bodies, getElem?_insert, getElem?_empty] at h
    rw [blocks, getElem?_insert, getElem?_empty]
    split at h
    · rename_i heq
      simp [if_pos heq]
    · exact absurd rfl h

/-- What the mainnet genesis envelope consists of. -/
theorem constructMainnetIdentity_eq_ok {canonical : CanonicalGenesis}
    (built : constructMainnetIdentity = .ok canonical) :
    ∃ header : BlockHeader, header.height = 0 ∧ header.prevHash = Hash256.zero ∧
      canonical.block = none ∧ canonical.headerBytes = headerBytes header ∧
      (validateMainnetGenesisIdentity canonical.blockBytes).isOk = true := by
  simp only [constructMainnetIdentity, bind_eq_ok, toBytes_header, ok_bind, pure_eq_ok] at built
  obtain ⟨anchor, -, -, -, -, -, parsed, hparsed, rfl⟩ := built
  refine ⟨canonicalHeader networkMagicMainnet anchor ⟨emptyRoot, emptyRoot, emptyRoot⟩, rfl, rfl,
    rfl, rfl, ?_⟩
  rw [hparsed]
  rfl

/-- The committed mainnet genesis is recorded, and leaves nothing to spend. -/
theorem Canonical.mainnetGenesis {s' : ChainState}
    (created : (ChainState.fresh genesisHash networkMagicMainnet).createGenesisBlock = .ok s') :
    ∃ chain', Canonical s' chain' ∧ s'.store.utxos = ∅ := by
  simp only [ChainState.createGenesisBlock, bind_eq_ok, rejectIf_eq_ok, pure_eq_ok,
    Store.commitBlock_eq_ok] at created
  obtain ⟨configured, -, canonical, hbuilt, -, -, header', hheader, changeset, hchangeset, _,
    ⟨-, rfl⟩, rfl⟩ := created
  obtain ⟨header, hheight, hprev, hblock, hbytes, hvalid⟩ := constructMainnetIdentity_eq_ok hbuilt
  rw [hbytes, fromBytes_headerBytes, Except.ok.injEq] at hheader
  simp only [ChainState.genesisChangeset, hblock, bind_eq_ok, pure_eq_ok] at hchangeset
  obtain ⟨-, -, rfl⟩ := hchangeset
  obtain rfl := hheader
  set link : Link := .envelope canonical.hash header canonical.blockBytes with hlink
  have hsound : ∀ chainId, link.Sound networkMagicMainnet chainId := fun _ =>
    ⟨rfl, hheight, hprev, hvalid⟩
  have hfits : link.utxoEffect.Fits empty ∧ link.kernelEffect.Fits empty :=
    ⟨⟨List.forall_mem_nil _, List.forall_mem_nil _⟩, ⟨List.forall_mem_nil _, List.forall_mem_nil _⟩⟩
  refine ⟨[link], ⟨?_, ?_, rfl, rfl, rfl, rfl⟩, rfl⟩
  · refine Tree.singleton (hsound _) hheight ?_ rfl rfl
    show (∅ : Table Hash256 Bytes).insert canonical.hash canonical.headerBytes = _
    rw [hbytes]
    rfl
  · refine .of_empty rfl rfl ⟨hfits.1, trivial⟩ (fun _ => rfl) (fun member h => ?_)
      ⟨hfits.2, trivial⟩ fun _ => rfl
    rw [List.mem_singleton.mp h]
    exact List.nodup_nil

/-- **The states a node starts from**: an empty store, or on mainnet, where `connect_block` accepts no
genesis, one with the genesis envelope. -/
inductive Started (genesisHash : Hash256) : UInt32 → ChainState → Prop where
  | fresh (networkMagic : UInt32) : Started genesisHash networkMagic (.fresh genesisHash networkMagic)
  | genesis {s : ChainState}
      (created : (ChainState.fresh genesisHash networkMagicMainnet).createGenesisBlock = .ok s) :
      Started genesisHash networkMagicMainnet s

/-- A start is recorded and has nothing to spend. -/
theorem Canonical.of_started (started : Started genesisHash networkMagic s) :
    ∃ chain, Canonical s chain ∧ s.store.utxos = ∅ := by
  cases started with
  | fresh => exact ⟨[], .fresh genesisHash networkMagic, rfl⟩
  | genesis created => exact Canonical.mainnetGenesis created

/-- **Every run from a recorded chain records a chain.** -/
theorem Canonical.deliver (canonical : Canonical s chain) (deliveries : List Delivery) :
    ∃ chain', Canonical (s.deliver deliveries) chain' := by
  induction deliveries generalizing s chain with
  | nil => exact ⟨chain, canonical⟩
  | cons delivery deliveries ih =>
    obtain ⟨s', result, chain', hrun, hcanonical, -⟩ :=
      canonical.connectBlock delivery.1 delivery.2
    rw [ChainState.deliver_cons, hrun]
    exact ih hcanonical

end DomProtocol

/-! ## Blocks over the transparent primitives

Over them a commitment is its opening, so a block can be written down from its openings. A block is
identified by its height and nonce. -/

namespace DomProtocol.Transparent

attribute [local instance] primitives

theorem toNat_pointBytes (blinding value : Nat) : (pointBytes blinding value).toNat =
    2 * 2 ^ 256 + blinding % 2 ^ 192 * 2 ^ 64 + value % 2 ^ 64 := by
  have hblinding := Nat.mod_lt blinding (show 0 < 2 ^ 192 by decide)
  have hvalue := Nat.mod_lt value (show 0 < 2 ^ 64 by decide)
  rw [pointBytes, BitVec.toNat_ofNat]
  omega

theorem tagOf_pointBytes (blinding value : Nat) : tagOf (pointBytes blinding value) = 2 := by
  have hblinding := Nat.mod_lt blinding (show 0 < 2 ^ 192 by decide)
  have hvalue := Nat.mod_lt value (show 0 < 2 ^ 64 by decide)
  rw [tagOf, toNat_pointBytes]
  omega

theorem tagged_pointBytes (blinding value : Nat) : decide (tagOf (pointBytes blinding value) = 2) :=
  decide_eq_true (tagOf_pointBytes blinding value)

/-- The commitment with an opening. -/
def commitTo (blinding value : Nat) : Commitment :=
  ⟨pointBytes blinding value, decide_eq_true (tagOf_pointBytes blinding value), rfl⟩

/-- An output with an opening; any proof of the right length is accepted. -/
def outputTo (blinding value : Nat) : TransactionOutput :=
  ⟨commitTo blinding value, List.replicate rangeProofSize 0⟩

/-- The signature under a key, with nonce one. -/
def signature (key : Nat) : Octets 65 :=
  BitVec.ofNat _ ((pointBytes 1 0).toNat * 2 ^ 256 + (key + 1))

/-- A coinbase without fees, whose output and excess have the given blinding factor. -/
def coinbaseAt (height : BlockHeight) (blinding : Nat) : CoinbaseTransaction where
  output := outputTo blinding (blockReward height).noms.toNat
  kernel := ⟨kernelFeatCoinbase, (blockReward height).noms, commitTo blinding 0, signature blinding⟩
  offset := 0

/-- A transaction without fee between openings; `key` is what the outputs have more in blinding. -/
def transfer (inputs outputs : List (Nat × Nat)) (key : Nat) : Transaction where
  inputs := inputs.map fun opening => ⟨commitTo opening.1 opening.2⟩
  outputs := outputs.map fun opening => outputTo opening.1 opening.2
  kernels := [⟨kernelFeatPlain, .zero, 0, commitTo key 0, signature key⟩]
  offset := 0

/-- The hash of the block with a height and a nonce. -/
def hashOf (height nonce : UInt64) : Hash256 :=
  BitVec.ofNat _ (height.toNat * 2 ^ 64 + nonce.toNat + 1)

theorem toNat_hashOf (height nonce : UInt64) :
    (hashOf height nonce).toNat = height.toNat * 2 ^ 64 + nonce.toNat + 1 := by
  have hheight := height.toNat_lt
  have hnonce := nonce.toNat_lt
  rw [hashOf, BitVec.toNat_ofNat]
  omega

/-- Blocks at different heights or with different nonces have different hashes. -/
theorem hashOf_inj {height nonce height' nonce' : UInt64} :
    hashOf height nonce = hashOf height' nonce' ↔ height = height' ∧ nonce = nonce' := by
  constructor
  · intro h
    have hnat := congrArg BitVec.toNat h
    rw [toNat_hashOf, toNat_hashOf] at hnat
    have hnonce := nonce.toNat_lt
    have hnonce' := nonce'.toNat_lt
    exact ⟨UInt64.toNat_inj.mp (by omega), UInt64.toNat_inj.mp (by omega)⟩
  · rintro ⟨rfl, rfl⟩
    rfl

/-- **The identifier of a block.** -/
theorem blockId_eq (block : Block) :
    blockId block = hashOf block.header.height block.header.pow.nonce := by
  set header := block.header with hheader
  have hlayout : headerBytes header = leBytes 4 header.version.toNat ++
      (leBytes 8 header.height.toNat ++ ((header.prevHash.toList ++ leBytes 8 header.timestamp.toNat ++
        header.outputRoot.toList ++ header.kernelRoot.toList ++ header.rangeproofRoot.toList ++
        header.totalKernelOffset.toList ++ leBytes 4 header.target.toNat ++
        Octets.toList header.totalDifficulty) ++ (leBytes 8 header.pow.nonce.toNat ++
          header.pow.randomxHash.toList))) := by
    simp only [headerBytes, WireFormat.encode, List.append_assoc]
  have hlength : (headerBytes header).length = 256 := by
    rw [hlayout]
    simp
  have hheight : leNat (((headerBytes header).drop 4).take 8) = header.height.toNat := by
    rw [hlayout, List.drop_left' (length_leBytes _ _), List.take_left' (length_leBytes _ _),
      leNat_leBytes header.height.toNat_lt]
  have hnonce : leNat (((headerBytes header).drop 216).take 8) = header.pow.nonce.toNat := by
    rw [hlayout, ← List.append_assoc, ← List.append_assoc, List.drop_left' (by simp),
      List.take_left' (length_leBytes _ _), leNat_leBytes header.pow.nonce.toNat_lt]
  show Transparent.hash (headerBytes header) = _
  rw [Transparent.hash, if_pos hlength, hheight, hnonce]
  rfl

/-- What is free in a block of these examples. -/
structure Slot where
  height : BlockHeight
  nonce : UInt64
  parent : UInt64
  timestamp : Timestamp
  target : CompactTarget
  work : Nat

/-- The block of a slot: the blinding factor of the coinbase is the hash of the block. -/
def Slot.block (networkMagic : UInt32) (slot : Slot) (transactions : List Transaction) : Block where
  header :=
    { version := requiredBlockVersionForNetwork networkMagic slot.height
      height := slot.height
      prevHash := if slot.height = 0 then 0 else hashOf (slot.height - 1) slot.parent
      timestamp := slot.timestamp
      outputRoot := 0
      kernelRoot := 0
      rangeproofRoot := 0
      totalKernelOffset := 0
      target := slot.target
      totalDifficulty := BitVec.ofNat _ slot.work
      pow := ⟨slot.nonce, 0⟩ }
  coinbase := coinbaseAt slot.height (hashOf slot.height slot.nonce).toNat
  transactions := transactions

/-- A regtest block one second after the height below. -/
def regtestBlock (height nonce parent : UInt64) (transactions : List Transaction) : Block :=
  Slot.block networkMagicRegtest
    ⟨height, nonce, parent, genesisTimestampRegtest + height, regtestTargetCompact,
      height.toNat + 1⟩ transactions

/-- The regtest state after the delivery of blocks. -/
def regtestRun (blocks : List Block) : ChainState :=
  (ChainState.fresh Hash256.zero networkMagicRegtest).deliver
    (blocks.map (·, genesisTimestampRegtest + 10))

/-- Genesis and two competing blocks on top of it; the second has the lower hash. -/
def siblings : List Block :=
  [regtestBlock 0 5 5 [], regtestBlock 1 5 5 [], regtestBlock 1 3 5 []]

/-- The reward of a block in the first epoch. -/
def reward : Nat := (blockReward 0).noms.toNat

end DomProtocol.Transparent
