import DomProtocol.Retention

/-! # The fork between the chain and a stored branch

A promotion first finds where a stored branch leaves the chain. On a state that records a chain,
**`exists_isFork`** says what it has found when it succeeds: the chain is a common part followed by
the blocks to disconnect, and the blocks to connect lead from the new tip down to the common part.
The new chain, common part and branch, is again linked (`IsFork.linked`). -/

namespace DomProtocol

variable [Primitives]

variable {store : Store} {networkMagic : UInt32} {chainId : Hash256} {chain : List Link}

/-- A block with its identifier. -/
def indexed (block : Block) : Hash256 × Block := (blockId block, block)

/-- Validated blocks. -/
def AllSound (networkMagic : UInt32) (chainId : Hash256) (blocks : List Block) : Prop :=
  ∀ block ∈ blocks, (Link.block block).Sound networkMagic chainId

/-- Stored blocks that lead from a tip down to an ancestor, tip first. -/
def Descends (store : Store) (ancestor : Hash256) : List Block → Hash256 → Prop
  | [], tip => tip = ancestor
  | block :: blocks, tip =>
    tip = blockId block ∧ store.Holds (.block block) ∧ block.header.height ≠ 0 ∧
      Descends store ancestor blocks block.header.prevHash

namespace Tree

variable {ancestor : Hash256} {fuel : Nat} {seen : List Hash256} {bound : Nat}
  {front back : List Link}

/-- The body of a stored block above genesis is that of an ordinary block. -/
theorem exists_block (tree : Tree store networkMagic chainId chain) {link : Link}
    (held : store.Holds link) (above : link.header.height ≠ 0) :
    ∃ block : Block, blockId block = link.hash ∧ block.header = link.header ∧
      store.Holds (.block block) ∧ (Link.block block).Sound networkMagic chainId := by
  obtain ⟨sound, hhash, hheader, hbody, hsound, -⟩ := tree.of_holds held
  obtain ⟨block, rfl⟩ := hsound.exists_block (hheader ▸ above)
  refine ⟨block, hhash, hheader, ⟨?_, ?_⟩, hsound⟩
  · rw [hhash, hheader]
    exact held.header
  · rw [hhash, hbody]
    exact held.body

/-- One step of collecting a branch. -/
theorem collectBranchBlocks_succ {block : Block}
    (held : store.Holds (.block block)) (sound : (Link.block block).Sound networkMagic chainId)
    (above : blockId block ≠ ancestor) :
    collectBranchBlocks store ancestor (fuel + 1) (blockId block) = (do
      let rest ← collectBranchBlocks store ancestor fuel block.header.prevHash
      pure (indexed block :: rest)) := by
  have hbody : store.blockBodies[blockId block]? = some (WireFormat.encode block) := held.body
  rw [collectBranchBlocks, if_neg above, hbody, okOr_some, ok_bind, sound.2.2.fromBytes, mapError,
    ok_bind, toBytes_header, ok_bind]
  rfl

omit [Primitives] in
/-- The zero hash is not searched past. -/
theorem firstSeen_zero (found : firstSeen store seen fuel Hash256.zero = .ok (some ancestor)) :
    ancestor = Hash256.zero := by
  cases fuel with
  | zero => cases found
  | succ fuel =>
    rw [firstSeen] at found
    split at found
    · rw [Except.ok.injEq, Option.some.injEq] at found
      exact found.symm
    · rw [if_pos rfl] at found
      cases found

/-- **The branch from a cursor to the ancestor that was found for it.** -/
theorem exists_collectBranchBlocks (tree : Tree store networkMagic chainId chain)
    (enough : fuel ≤ bound) {cursor : Hash256}
    (found : firstSeen store seen fuel cursor = .ok (some ancestor))
    (nonzero : ancestor ≠ Hash256.zero) :
    ∃ blocks, collectBranchBlocks store ancestor bound cursor = .ok (blocks.map indexed) ∧
      Descends store ancestor blocks cursor ∧ AllSound networkMagic chainId blocks ∧
      ancestor ∈ seen ∧ blocks.length < fuel := by
  induction fuel generalizing cursor bound with
  | zero => cases found
  | succ fuel ih =>
    obtain ⟨bound, rfl⟩ : ∃ b, bound = b + 1 := ⟨bound - 1, by omega⟩
    by_cases hseen : cursor ∈ seen
    · rw [firstSeen, if_pos hseen, Except.ok.injEq, Option.some.injEq] at found
      subst found
      exact ⟨[], by rw [collectBranchBlocks, if_pos rfl]; rfl, rfl,
        fun _ h => absurd h List.not_mem_nil, hseen, by simp⟩
    obtain ⟨link, rfl, hheld, hnext⟩ := tree.firstSeen_succ found hseen
    have habove : link.header.height ≠ 0 := by
      intro hzero
      obtain ⟨sound, -, hheader, -, hsound, -⟩ := tree.of_holds hheld
      rw [← hheader] at hzero hnext
      rw [hsound.height_eq_zero_iff.mp hzero] at hnext
      exact nonzero (firstSeen_zero hnext)
    obtain ⟨block, hid, hheader, hblock, hsound⟩ := tree.exists_block hheld habove
    rw [← hheader] at hnext habove
    obtain ⟨blocks, hcollect, hdescends, hall, hmem, hlength⟩ :=
      ih (by omega : fuel ≤ bound) hnext
    refine ⟨block :: blocks, ?_, ⟨hid.symm, hblock, habove, hdescends⟩,
      List.forall_mem_cons.mpr ⟨hsound, hall⟩, hmem, by simpa using hlength⟩
    have hnot : blockId block ≠ ancestor := fun heq => hseen ((hid.symm.trans heq) ▸ hmem)
    rw [← hid, collectBranchBlocks_succ hblock hsound hnot, hcollect]
    rfl

/-- The links of the chain above genesis are ordinary blocks. -/
theorem exists_blocks (tree : Tree store networkMagic chainId chain)
    (split : chain = front ++ back) (nonempty : front ≠ []) :
    ∃ blocks : List Block, back = blocks.map Link.block := by
  have heach : ∀ link ∈ back, ∃ block, Link.block block = link := by
    intro link hmem
    obtain ⟨i, hi⟩ := List.mem_iff_getElem?.mp hmem
    have hmem' : link ∈ chain := split ▸ List.mem_append_right _ hmem
    have hindex : chain[front.length + i]? = some link := by
      rw [split, List.getElem?_append_right (by omega)]
      simpa using hi
    have hheight := tree.linked.height _ _ hindex
    have hpos : 0 < front.length := List.length_pos_iff.mpr nonempty
    obtain ⟨block, hblock⟩ := (tree.sound link hmem').exists_block (by
      intro hzero
      rw [hzero, UInt64.toNat_zero] at hheight
      omega)
    exact ⟨block, hblock.symm⟩
  have hrange : back ∈ Set.range (List.map Link.block) := by
    rw [Set.range_list_map]
    exact heach
  exact hrange.imp fun _ h => h.symm

/-- The hash of a prefix of the chain identifies the prefix. -/
theorem getElem?_of_tipHashOf (split : chain = front ++ back) (nonempty : front ≠ []) :
    ∃ link, chain[front.length - 1]? = some link ∧ tipHashOf front = link.hash := by
  have hpos : 0 < front.length := List.length_pos_iff.mpr nonempty
  have hlast : front[front.length - 1]? = some (front[front.length - 1]) :=
    List.getElem?_eq_getElem (by omega)
  refine ⟨_, ?_, tipHashOf_of_getElem? hlast⟩
  rw [split, List.getElem?_append_left (by omega), hlast]

/-- **The branch from a block of the chain down to another is that part of the chain.** -/
theorem collectBranchBlocks_chain (tree : Tree store networkMagic chainId chain)
    (nonempty : front ≠ []) {blocks : List Block} {rest : List Link}
    (split : chain = front ++ blocks.map Link.block ++ rest)
    (enough : blocks.length < bound) :
    collectBranchBlocks store (tipHashOf front) bound
      (tipHashOf (front ++ blocks.map Link.block)) = .ok (blocks.reverse.map indexed) := by
  induction blocks using List.reverseRecOn generalizing rest bound with
  | nil =>
    obtain ⟨bound, rfl⟩ : ∃ b, bound = b + 1 := ⟨bound - 1, by simp at enough; omega⟩
    rw [List.map_nil, List.append_nil, collectBranchBlocks, if_pos rfl]
    rfl
  | append_singleton blocks block ih =>
    rw [List.length_append, List.length_singleton] at enough
    obtain ⟨bound, rfl⟩ : ∃ b, bound = b + 1 := ⟨bound - 1, by omega⟩
    rw [List.map_append, List.map_singleton, ← List.append_assoc] at split ⊢
    have hmem : Link.block block ∈ chain := by
      rw [split]
      simp
    have hindex : chain[(front ++ blocks.map Link.block).length]? = some (Link.block block) := by
      rw [split, List.append_assoc, List.getElem?_append_right le_rfl]
      simp
    obtain ⟨ancestor, hancestor, htip⟩ := getElem?_of_tipHashOf
      (split.trans (List.append_assoc _ _ _ |>.trans (List.append_assoc _ _ _))) nonempty
    have habove : blockId block ≠ tipHashOf front := by
      intro heq
      have := tree.chain_index_unique hindex hancestor (heq.trans htip)
      rw [List.length_append] at this
      have hpos : 0 < front.length := List.length_pos_iff.mpr nonempty
      omega
    -- the parent of the block is the tip of the part before it
    have hne : front ++ blocks.map Link.block ≠ [] := by simp [nonempty]
    obtain ⟨before, hbefore, hbeforeTip⟩ := getElem?_of_tipHashOf
      (split.trans (List.append_assoc _ _ _)) hne
    have hpos : 0 < (front ++ blocks.map Link.block).length := List.length_pos_iff.mpr hne
    have hparent := tree.linked.parent _ _ _ hbefore (by rw [Nat.sub_add_cancel hpos]; exact hindex)
    rw [tipHashOf_concat, Link.hash_block,
      collectBranchBlocks_succ (tree.onChain _ hmem) (tree.sound _ hmem) habove]
    rw [Link.header_block] at hparent
    rw [hparent, ← hbeforeTip, ih (split.trans (List.append_assoc _ _ _)) (by omega), ok_bind,
      List.reverse_append, List.reverse_singleton, List.singleton_append, List.map_cons]
    rfl

end Tree

/-- **A branch on top of a part of the chain is linked and stored.** -/
theorem Descends.linked (tree : Tree store networkMagic chainId chain) {front back : List Link}
    (split : chain = front ++ back) (nonempty : front ≠ []) {blocks : List Block} {tip : Hash256}
    (descends : Descends store (tipHashOf front) blocks tip) :
    Linked (front ++ blocks.reverse.map Link.block) ∧
      tipHashOf (front ++ blocks.reverse.map Link.block) = tip ∧
      ∀ link ∈ front ++ blocks.reverse.map Link.block, store.Holds link := by
  induction blocks generalizing tip with
  | nil =>
    rw [List.reverse_nil, List.map_nil, List.append_nil]
    exact ⟨(split ▸ tree.linked).of_append, descends.symm,
      fun link hmem => tree.onChain link (split ▸ List.mem_append_left _ hmem)⟩
  | cons block blocks ih =>
    obtain ⟨rfl, hheld, habove, hrest⟩ := descends
    obtain ⟨hlinked, htip, hstored⟩ := ih hrest
    rw [List.reverse_cons, List.map_append, List.map_singleton, ← List.append_assoc]
    have hne : front ++ blocks.reverse.map Link.block ≠ [] := by simp [nonempty]
    obtain ⟨last, hlast, hlastTip⟩ := Tree.getElem?_of_tipHashOf (List.append_nil _).symm hne
    -- the parent is the last link below, which has the greatest height so far
    obtain ⟨parent, hparent, hparentHeld, hheight⟩ := tree.exists_parent hheld habove
    have hheader := hparentHeld.header_eq (hstored last (List.mem_of_getElem? hlast))
      (hparent.trans (htip.symm.trans hlastTip))
    have hpos := List.length_pos_iff.mpr hne
    rw [hheader, hlinked.height _ _ hlast, Nat.sub_add_cancel hpos] at hheight
    refine ⟨hlinked.concat hheight fun _ => htip.symm, tipHashOf_concat _ _, fun link hmem => ?_⟩
    rcases mem_snoc.mp hmem with hmem | rfl
    · exact hstored link hmem
    · exact hheld

/-! ## Forks -/

/-- **The fork a promotion works on**: `front` stays, `old` is disconnected, `new` is connected. -/
structure IsFork (s : ChainState) (chain : List Link) (newTip : Hash256) (fork : ChainState.Fork)
    (front : List Link) (old new : List Block) : Prop where
  split : chain = front ++ old.map Link.block
  nonempty : front ≠ []
  height : fork.ancestorHeight.toNat = front.length - 1
  disconnect : fork.disconnect = old.reverse.map indexed
  connect : fork.connect = new.map indexed
  descends : Descends s.store (tipHashOf front) new.reverse newTip
  sound : AllSound s.networkMagic s.chainId new
  finality : s.tipHeight.toNat < maxReorgDepth ∨ old.length < maxReorgDepth

/-- The chain after a promotion. -/
theorem IsFork.linked {s : ChainState} {newTip : Hash256} {fork : ChainState.Fork}
    {front : List Link} {old new : List Block} (isFork : IsFork s chain newTip fork front old new)
    (tree : Tree s.store networkMagic chainId chain) :
    Linked (front ++ new.map Link.block) ∧ tipHashOf (front ++ new.map Link.block) = newTip ∧
      ∀ link ∈ front ++ new.map Link.block, s.store.Holds link := by
  have h := isFork.descends.linked tree isFork.split isFork.nonempty
  rwa [List.reverse_reverse] at h

/-- The position of a hash on the chain. -/
theorem exists_front {hash : Hash256} (mem : hash ∈ chain.map Link.hash) :
    ∃ front back, chain = front ++ back ∧ front ≠ [] ∧ tipHashOf front = hash := by
  obtain ⟨link, hlink, rfl⟩ := List.mem_map.mp mem
  obtain ⟨before, after, rfl⟩ := List.append_of_mem hlink
  exact ⟨before ++ [link], after, by simp, by simp, tipHashOf_concat before link⟩

namespace Canonical

variable {s : ChainState}

/-- The tip is on the chain or zero. -/
theorem tipHash_mem (canonical : Canonical s chain) :
    s.tipHash = Hash256.zero ∨ s.tipHash ∈ chain.map Link.hash := by
  rw [canonical.tipHash, tipHashOf]
  cases hlast : chain.getLast? with
  | none => exact .inl rfl
  | some link => exact .inr (List.mem_map.mpr ⟨link, List.mem_of_getLast? hlast, rfl⟩)

theorem length_le_tipHeight (canonical : Canonical s chain) :
    chain.length ≤ s.tipHeight.toNat + 1 := by
  rw [canonical.tipHeight]
  omega

/-- The height of an ancestor on the chain. -/
theorem ancestorHeight_eq (canonical : Canonical s chain) {front back : List Link}
    (split : chain = front ++ back) (nonempty : front ≠ []) {height : UInt64}
    (computed : s.ancestorHeight (tipHashOf front) = .ok height) :
    height.toNat = front.length - 1 := by
  obtain ⟨link, hlink, htip⟩ := Tree.getElem?_of_tipHashOf split nonempty
  unfold ChainState.ancestorHeight at computed
  split at computed
  · rename_i hsame
    rw [Except.ok.injEq] at computed
    obtain ⟨last, hlast, hlastTip⟩ := Tree.getElem?_of_tipHashOf (List.append_nil chain).symm
      (split ▸ by simp [nonempty])
    rw [← computed, canonical.tipHeight]
    refine canonical.tree.chain_index_unique hlast hlink ?_
    rw [← hlastTip, ← htip, ← canonical.tipHash, hsame]
  · rw [htip, (canonical.tree.onChain link (List.mem_of_getElem? hlink)).requireHeader, ok_bind,
      pure_eq_ok] at computed
    rw [← computed]
    exact canonical.tree.linked.height _ _ hlink

/-- **What a promotion has found.** -/
theorem exists_isFork (canonical : Canonical s chain) {newTip : Hash256} {header : BlockHeader}
    {fork : ChainState.Fork} (found : s.findFork newTip header = .ok fork) :
    ∃ front old new, IsFork s chain newTip fork front old new := by
  simp only [ChainState.findFork, bind_eq_ok, okOr_eq_ok, rejectIf_eq_ok, pure_eq_ok, not_not,
    checkRollingFinality, checkReorgDepth, not_and] at found
  obtain ⟨common, hcommon, ancestor, hancestor, height, hheight, -, -, -, -, depth, hdepth, -,
    hfinality, -, -, disconnect, hdisconnect, -, hlength, branch, hbranch, rfl⟩ := found
  obtain ⟨rfl, hnonzero⟩ := Option.filter_eq_some_iff.mp hancestor
  have hnonzero : ancestor ≠ Hash256.zero := by simpa using hnonzero
  -- the ancestor is on the chain, and the new branch descends to it
  obtain ⟨new, hnew, hdescends, hsound, hmem⟩ : ∃ blocks, collectBranchBlocks s.store ancestor
      walkFuel newTip = .ok (blocks.map indexed) ∧ Descends s.store ancestor blocks newTip ∧
        AllSound s.networkMagic s.chainId blocks ∧ ancestor ∈ chain.map Link.hash := by
    unfold findCommonAncestor at hcommon
    split at hcommon
    · rename_i hsame
      rw [Except.ok.injEq, Option.some.injEq] at hcommon
      subst hcommon
      refine ⟨[], ?_, hsame.symm, fun _ h => absurd h List.not_mem_nil,
        canonical.tipHash_mem.resolve_left hnonzero⟩
      rw [← hsame, show walkFuel = (2 ^ 64 - 1) + 1 from rfl, collectBranchBlocks, if_pos rfl]
      rfl
    · obtain ⟨seen, hseen, honly⟩ :=
        canonical.tree.exists_ancestorWalk (maxReorgDepthPolicy + 1) canonical.tipHash_mem []
      rw [hseen, ok_bind] at hcommon
      obtain ⟨blocks, hcollect, hdescends, hsound, hmem, -⟩ :=
        canonical.tree.exists_collectBranchBlocks
          (by decide : maxReorgDepthPolicy + 1 ≤ walkFuel) hcommon hnonzero
      exact ⟨blocks, hcollect, hdescends, hsound,
        ((honly _ hmem).resolve_left List.not_mem_nil).resolve_left hnonzero⟩
  obtain ⟨front, back, hsplit, hnonempty, rfl⟩ := exists_front hmem
  obtain ⟨old, rfl⟩ := canonical.tree.exists_blocks hsplit hnonempty
  have hfront := canonical.ancestorHeight_eq hsplit hnonempty hheight
  have hbound : old.length < walkFuel := by
    have := canonical.tree.length_le
    have hpos : 0 < front.length := List.length_pos_iff.mpr hnonempty
    rw [hsplit, List.length_append, List.length_map] at this
    rw [walkFuel]
    omega
  have hold := canonical.tree.collectBranchBlocks_chain hnonempty
    (hsplit.trans (List.append_nil _).symm) hbound
  rw [canonical.tipHash, hsplit, hold, Except.ok.injEq] at hdisconnect
  rw [hnew, Except.ok.injEq] at hbranch
  refine ⟨front, old, new.reverse, hsplit, hnonempty, hfront, hdisconnect.symm, ?_, ?_,
    fun block hmem => hsound block (List.mem_reverse.mp hmem), ?_⟩
  · rw [← hbranch, List.map_reverse]
  · rw [List.reverse_reverse]
    exact hdescends
  · rw [← hdisconnect, List.length_map, List.length_reverse] at hlength
    rw [hlength]
    by_cases htip : s.tipHeight.toNat < maxReorgDepth
    · exact .inl htip
    · exact .inr (by simpa using hfinality (by omega))

end Canonical

end DomProtocol
