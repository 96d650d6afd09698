import DomProtocol.Chain

/-! # Retention keeps the tree

Side-chain retention deletes stored blocks that are not on the branch of a retained tip. It never
fails on a stored tree, never deletes a block of the chain, and never deletes the parent of a block
it keeps (**`exists_pruneHashes`**); so what is left is again a tree around the same chain
(**`Tree.prune`**).

The last point is where the limits matter: a tip is retained only if the search for its common
ancestor met the chain within the walk bound, and the walk that keeps its branch has the same
bound. -/

namespace DomProtocol

variable [Primitives]

variable {store : Store} {networkMagic : UInt32} {chainId : Hash256} {chain : List Link}

namespace Tree

variable {link : Link} {cursor : Hash256} {seen : List Hash256} {fuel : Nat} {ancestor : Hash256}
  {keep : List Hash256} {tipHash : Hash256}

/-! ## Links and their parents -/

section

variable (tree : Tree store networkMagic chainId chain)
include tree

/-- The parent of a chain link is on the chain, except for genesis. -/
theorem prevHash_of_mem (held : store.Holds link) (mem : link.hash ∈ chain.map Link.hash) :
    link.header.prevHash = Hash256.zero ∨ link.header.prevHash ∈ chain.map Link.hash := by
  obtain ⟨member, hmem, hhash⟩ := List.mem_map.mp mem
  obtain ⟨i, hi⟩ := List.mem_iff_getElem?.mp hmem
  have hheader := held.header_eq (tree.onChain member hmem) hhash.symm
  cases i with
  | zero =>
    have hheight : link.header.height = 0 := by
      rw [← UInt64.toNat_inj, hheader, tree.linked.height 0 member hi, UInt64.toNat_zero]
    obtain ⟨sound, -, hsame, -, hsound, -⟩ := tree.of_holds held
    rw [← hsame] at hheight ⊢
    exact .inl (hsound.height_eq_zero_iff.mp hheight)
  | succ i =>
    have hlt : i < chain.length := by
      have := (List.getElem?_eq_some_iff.mp hi).1
      omega
    have hprev := tree.linked.parent i _ member (List.getElem?_eq_getElem hlt) hi
    rw [hheader, hprev]
    exact .inr (List.mem_map.mpr ⟨_, List.getElem_mem hlt, rfl⟩)

/-- A stored block without a parent is on the chain. -/
theorem mem_of_prevHash_zero (held : store.Holds link) (root : link.header.prevHash = Hash256.zero) :
    link.hash ∈ chain.map Link.hash := by
  obtain ⟨sound, hhash, hheader, -, hsound, hattached⟩ := tree.of_holds held
  rw [← hheader] at root
  have hheight := hsound.height_eq_zero_iff.mpr root
  rw [← hhash]
  rcases hattached with ⟨-, hmem⟩ | ⟨parent, -, -, hnext⟩
  · exact hmem
  · rw [hheight, UInt64.toNat_zero] at hnext
    omega

/-- The parent of a stored block off the chain is stored, one height below. -/
theorem exists_parent (held : store.Holds link) (off : link.header.height ≠ 0) :
    ∃ parent : Link, parent.hash = link.header.prevHash ∧ store.Holds parent ∧
      link.header.height.toNat = parent.header.height.toNat + 1 := by
  obtain ⟨sound, hhash, hheader, -, hsound, hattached⟩ := tree.of_holds held
  rw [← hheader] at off ⊢
  rcases hattached with ⟨hzero, -⟩ | hparent
  · exact absurd hzero off
  · exact hparent

end

/-! ## The common ancestor -/

section

variable (tree : Tree store networkMagic chainId chain)
include tree

/-- A walk down the chain succeeds and sees only the chain. -/
theorem exists_ancestorWalk (fuel : Nat)
    (start : cursor = Hash256.zero ∨ cursor ∈ chain.map Link.hash)
    (seen : List Hash256) :
    ∃ result, ancestorWalk store fuel cursor seen = .ok result ∧
      ∀ hash ∈ result, hash ∈ seen ∨ hash = Hash256.zero ∨ hash ∈ chain.map Link.hash := by
  induction fuel generalizing cursor seen with
  | zero => exact ⟨seen, rfl, fun hash hmem => .inl hmem⟩
  | succ fuel ih =>
    rw [ancestorWalk]
    by_cases hzero : cursor = Hash256.zero
    · rw [if_pos hzero]
      refine ⟨_, rfl, fun hash hmem => ?_⟩
      rcases List.mem_cons.mp hmem with rfl | hmem
      · exact .inr (.inl hzero)
      · exact .inl hmem
    have hon := start.resolve_left hzero
    obtain ⟨link, hlink, rfl⟩ := List.mem_map.mp hon
    have held := tree.onChain link hlink
    rw [if_neg hzero, held.requireHeader, ok_bind]
    by_cases hprev : link.header.prevHash = Hash256.zero
    · rw [if_pos hprev]
      refine ⟨_, rfl, fun hash hmem => ?_⟩
      rcases List.mem_cons.mp hmem with rfl | hmem
      · exact .inr (.inl rfl)
      rcases List.mem_cons.mp hmem with rfl | hmem
      · exact .inr (.inr hon)
      · exact .inl hmem
    · rw [if_neg hprev]
      obtain ⟨result, hresult, hsub⟩ := ih (tree.prevHash_of_mem held hon) (link.hash :: seen)
      refine ⟨result, hresult, fun hash hmem => ?_⟩
      rcases hsub hash hmem with hmem | hrest
      · rcases List.mem_cons.mp hmem with rfl | hmem
        · exact .inr (.inr hon)
        · exact .inl hmem
      · exact .inr hrest

/-- The search along a stored branch does not fail. -/
theorem exists_firstSeen (seen : List Hash256)
    (fuel : Nat) (cursor : Hash256) : ∃ found, firstSeen store seen fuel cursor = .ok found := by
  induction fuel generalizing cursor with
  | zero => exact ⟨none, rfl⟩
  | succ fuel ih =>
    rw [firstSeen]
    split
    · exact ⟨_, rfl⟩
    split
    · exact ⟨_, rfl⟩
    cases hbytes : store.blocks[cursor]? with
    | none => exact ⟨_, rfl⟩
    | some bytes =>
      obtain ⟨link, rfl, hheld, -, -⟩ := tree.held cursor bytes hbytes
      rw [hheld.header, Option.some.injEq] at hbytes
      simp only [← hbytes, fromBytes_headerBytes, ok_bind]
      exact ih _

/-- One step of the search. -/
theorem firstSeen_succ (found : firstSeen store seen (fuel + 1) cursor = .ok (some ancestor))
    (unseen : cursor ∉ seen) :
    ∃ link : Link, link.hash = cursor ∧ store.Holds link ∧
      firstSeen store seen fuel link.header.prevHash = .ok (some ancestor) := by
  rw [firstSeen, if_neg unseen] at found
  split at found
  · cases found
  cases hbytes : store.blocks[cursor]? with
  | none => simp [hbytes] at found
  | some bytes =>
    obtain ⟨link, rfl, hheld, -, -⟩ := tree.held cursor bytes hbytes
    rw [hheld.header, Option.some.injEq] at hbytes
    rw [hheld.header] at found
    simp only [fromBytes_headerBytes, ok_bind] at found
    exact ⟨link, rfl, hheld, found⟩

end

/-! ## Keeping a branch -/

/-- Every kept block is on the chain, or its parent is kept. -/
def Closed (store : Store) (chain : List Link) (keep : List Hash256) : Prop :=
  ∀ link : Link, store.Holds link → link.hash ∈ keep →
    link.hash ∈ chain.map Link.hash ∨ link.header.prevHash ∈ keep

/-- **Keeping the branch of a cursor.** The walk ends in what was kept, because the search for a
common ancestor from the same cursor, with the same bound, met the chain. While it runs, the only
kept block whose parent may be missing is the child of the cursor. -/
theorem exists_keepBranch (tree : Tree store networkMagic chainId chain)
    (onlyChain : ∀ hash ∈ seen, hash = Hash256.zero ∨ hash ∈ chain.map Link.hash)
    (chainKept : ∀ hash ∈ chain.map Link.hash, hash ∈ keep)
    (found : firstSeen store seen fuel cursor = .ok (some ancestor))
    (start : cursor ∈ seen → cursor ∈ keep)
    (pending : ∀ link : Link, store.Holds link → link.hash ∈ keep →
      link.hash ∈ chain.map Link.hash ∨ link.header.prevHash ∈ keep ∨
        link.header.prevHash = cursor) :
    ∃ keep', keepBranch store fuel keep cursor = .ok keep' ∧ (∀ hash ∈ keep, hash ∈ keep') ∧
      cursor ∈ keep' ∧ Closed store chain keep' := by
  induction fuel generalizing cursor keep with
  | zero => cases found
  | succ fuel ih =>
    rw [keepBranch]
    by_cases hin : cursor ∈ keep
    · rw [if_pos hin]
      refine ⟨keep, rfl, fun _ h => h, hin, fun link hheld hmem => ?_⟩
      rcases pending link hheld hmem with h | h | h
      · exact .inl h
      · exact .inr h
      · exact .inr (h ▸ hin)
    have hunseen : cursor ∉ seen := fun h => hin (start h)
    obtain ⟨link, rfl, hheld, hnext⟩ := tree.firstSeen_succ found hunseen
    -- the search took a further step, so there is fuel for one
    have hfuel : fuel ≠ 0 := by
      rintro rfl
      cases hnext
    have hoff : link.hash ∉ chain.map Link.hash := fun h => hin (chainKept _ h)
    have hprev : link.header.prevHash ≠ Hash256.zero := fun h =>
      hoff (tree.mem_of_prevHash_zero hheld h)
    rw [if_neg hin, if_neg hfuel, hheld.header]
    simp only [fromBytes_headerBytes, ok_bind]
    rw [if_neg hprev]
    obtain ⟨keep', hkeep, hsub, hcursor, hclosed⟩ := ih (fun hash h =>
      List.mem_cons_of_mem _ (chainKept hash h)) hnext (fun h => List.mem_cons_of_mem _
        (chainKept _ ((onlyChain _ h).resolve_left hprev))) (by
      intro other hother hmem
      rcases List.mem_cons.mp hmem with hsame | hmem
      · rw [hother.header_eq hheld hsame]
        exact .inr (.inr rfl)
      · rcases pending other hother hmem with h | h | h
        · exact .inl h
        · exact .inr (.inl (List.mem_cons_of_mem _ h))
        · exact .inr (.inl (h ▸ List.mem_cons_self)))
    exact ⟨keep', hkeep, fun hash h => hsub hash (List.mem_cons_of_mem _ h),
      hsub _ List.mem_cons_self, hclosed⟩

/-! ## Candidates -/

/-- A retention candidate is a tip whose branch meets the chain. -/
def Meets (store : Store) (chain : List Link) (tip : Hash256) : Prop :=
  ∃ seen ancestor, (∀ hash ∈ seen, hash = Hash256.zero ∨ hash ∈ chain.map Link.hash) ∧
    firstSeen store seen (maxReorgDepthPolicy + 1) tip = .ok (some ancestor) ∧ tip ∉ seen

section

variable (tree : Tree store networkMagic chainId chain)
include tree

theorem exists_findCommonAncestor {ourTip : Hash256}
    (tip : ourTip = Hash256.zero ∨ ourTip ∈ chain.map Link.hash)
    (theirTip : Hash256) :
    ∃ found, findCommonAncestor store ourTip theirTip = .ok found ∧
      ∀ ancestor, found = some ancestor → ancestor ≠ theirTip → Meets store chain theirTip := by
  unfold findCommonAncestor
  split
  · rename_i hsame
    refine ⟨_, rfl, fun ancestor heq hne => ?_⟩
    rw [Option.some.injEq] at heq
    exact absurd (heq ▸ hsame) hne
  · obtain ⟨seen, hseen, honly⟩ := tree.exists_ancestorWalk (maxReorgDepthPolicy + 1) tip []
    obtain ⟨found, hfound⟩ := tree.exists_firstSeen seen (maxReorgDepthPolicy + 1) theirTip
    rw [hseen, ok_bind]
    refine ⟨found, hfound, fun ancestor heq hne => ?_⟩
    subst heq
    refine ⟨seen, ancestor, fun hash hmem => (honly hash hmem).resolve_left List.not_mem_nil,
      hfound, fun hmem => hne ?_⟩
    rw [firstSeen, if_pos hmem, Except.ok.injEq, Option.some.injEq] at hfound
    exact hfound.symm

theorem exists_ancestorHeightOf (ancestor : Hash256) :
    ∃ height, ancestorHeightOf store ancestor = .ok height := by
  unfold ancestorHeightOf
  split
  · exact ⟨_, rfl⟩
  cases hbytes : store.blocks[ancestor]? with
  | none => exact ⟨_, rfl⟩
  | some bytes =>
    obtain ⟨link, rfl, hheld, -, -⟩ := tree.held ancestor bytes hbytes
    rw [hheld.header, Option.some.injEq] at hbytes
    simp only [← hbytes, fromBytes_headerBytes, ok_bind]
    exact ⟨_, rfl⟩

theorem exists_retentionCandidate (tip : tipHash = Hash256.zero ∨ tipHash ∈ chain.map Link.hash)
    (tipHeight : BlockHeight) (indexed : Hash256 × BlockHeader) :
    ∃ candidate, retentionCandidate store tipHeight tipHash indexed = .ok candidate ∧
      ∀ retained, candidate = some retained →
        retained.hash = indexed.1 ∧ Meets store chain indexed.1 := by
  obtain ⟨found, hfound, hmeets⟩ := tree.exists_findCommonAncestor tip indexed.1
  rw [retentionCandidate, hfound, ok_bind]
  cases found with
  | none => exact ⟨none, rfl, by simp⟩
  | some ancestor =>
    dsimp only
    split
    · exact ⟨none, rfl, by simp⟩
    rename_i hne
    obtain ⟨height, hheight⟩ := tree.exists_ancestorHeightOf ancestor
    rw [hheight, ok_bind]
    cases height with
    | none => exact ⟨none, rfl, by simp⟩
    | some ancestorHeight =>
      dsimp only
      split
      · exact ⟨none, rfl, by simp⟩
      · refine ⟨_, rfl, fun retained heq => ?_⟩
        rw [Option.some.injEq] at heq
        subst heq
        exact ⟨rfl, hmeets ancestor rfl hne⟩

end

/-! ## Pruning -/

variable (tree : Tree store networkMagic chainId chain)
include tree

/-- Keeping the branches of tips that meet the chain. -/
theorem exists_keepBranches {tips : List RetainedSideTip}
    (meets : ∀ tip ∈ tips, Meets store chain tip.hash)
    (chainKept : ∀ hash ∈ chain.map Link.hash, hash ∈ keep) (closed : Closed store chain keep) :
    ∃ keep', tips.foldlM
        (fun keep tip => keepBranch store (maxRetainedSideBranchLength + 1) keep tip.hash) keep =
          .ok keep' ∧
      (∀ hash ∈ keep, hash ∈ keep') ∧ Closed store chain keep' ∧
      ∀ tip ∈ tips, tip.hash ∈ keep' := by
  induction tips generalizing keep with
  | nil => exact ⟨keep, rfl, fun _ h => h, closed, by simp⟩
  | cons tip tips ih =>
    obtain ⟨seen, ancestor, honly, hfound, hunseen⟩ := meets tip List.mem_cons_self
    obtain ⟨mid, hmid, hsub, htip, hclosed⟩ := tree.exists_keepBranch honly chainKept hfound
      (fun h => absurd h hunseen)
      (fun link hheld hmem => (closed link hheld hmem).imp_right .inl)
    obtain ⟨keep', hrun, hsub', hclosed', htips⟩ := ih
      (fun t ht => meets t (List.mem_cons_of_mem _ ht))
      (fun hash h => hsub hash (chainKept hash h)) hclosed
    refine ⟨keep', ?_, fun hash h => hsub' hash (hsub hash h), hclosed',
      List.forall_mem_cons.mpr ⟨hsub' _ htip, htips⟩⟩
    rw [List.foldlM_cons]
    show keepBranch store (maxReorgDepthPolicy + 1) keep tip.hash >>= _ = _
    rw [hmid, ok_bind]
    exact hrun

/-- The headers off the chain can all be read. -/
theorem exists_noncanonicalHeaders (canonical : List Hash256) :
    ∃ headers, noncanonicalHeaders store canonical = .ok headers ∧
      ∀ indexed : Hash256 × BlockHeader, indexed ∈ headers ↔
        indexed.1 ∉ canonical ∧ store.blocks[indexed.1]? = some (headerBytes indexed.2) := by
  have heach : ∀ entry ∈ store.blocks.toList.filter fun entry => entry.1 ∉ canonical,
      ∃ result : Hash256 × BlockHeader, (do
        let header ← fromBytes BlockHeader entry.2
        pure (entry.1, header) : Result (Hash256 × BlockHeader)) = .ok result := by
    rintro ⟨hash, bytes⟩ hmem
    have hbytes := Std.ExtTreeMap.mem_toList_iff_getElem?_eq_some.mp (List.mem_filter.mp hmem).1
    obtain ⟨link, rfl, hheld, -, -⟩ := tree.held hash bytes hbytes
    rw [hheld.header, Option.some.injEq] at hbytes
    rw [← hbytes]
    simp only [fromBytes_headerBytes, ok_bind]
    exact ⟨_, rfl⟩
  obtain ⟨headers, hheaders⟩ := exists_mapM_eq_ok heach
  refine ⟨headers, hheaders, fun indexed => ?_⟩
  rw [mem_of_mapM_eq_ok hheaders]
  simp only [List.mem_filter, decide_eq_true_eq, bind_eq_ok, pure_eq_ok]
  constructor
  · rintro ⟨⟨hash, bytes⟩, ⟨hmem, hoff⟩, header, hdecode, rfl⟩
    have hbytes := Std.ExtTreeMap.mem_toList_iff_getElem?_eq_some.mp hmem
    exact ⟨hoff, hbytes.trans (congrArg some (encode_of_fromBytes hdecode).2.symm)⟩
  · rintro ⟨hoff, hbytes⟩
    exact ⟨(indexed.1, headerBytes indexed.2),
      ⟨Std.ExtTreeMap.mem_toList_iff_getElem?_eq_some.mpr hbytes, hoff⟩, indexed.2,
      fromBytes_headerBytes _, rfl⟩

/-- **Pruning succeeds, spares the chain, and spares the parent of what it spares.** -/
theorem exists_pruneHashes {tipHeight : BlockHeight}
    (tip : tipHash = Hash256.zero ∨ tipHash ∈ chain.map Link.hash)
    (height : chain.length ≤ tipHeight.toNat + 1) :
    ∃ hashes, pruneHashes store tipHeight tipHash = .ok hashes ∧
      (∀ hash ∈ hashes, hash ∉ chain.map Link.hash) ∧
      ∀ link : Link, store.Holds link → link.hash ∉ hashes →
        link.hash ∈ chain.map Link.hash ∨ link.header.prevHash ∉ hashes := by
  have hcanonical := tree.canonicalHashes_eq height
  obtain ⟨headers, hheaders, hmem⟩ :=
    tree.exists_noncanonicalHeaders (canonicalHashes store tipHeight)
  have hcandidates : ∀ indexed ∈ headers.filter fun indexed =>
      indexed.1 ∉ headers.map (·.2.prevHash),
      ∃ candidate, retentionCandidate store tipHeight tipHash indexed = .ok candidate :=
    fun indexed _ => (tree.exists_retentionCandidate tip tipHeight indexed).imp fun _ h => h.1
  obtain ⟨candidates, hrun⟩ := exists_mapM_eq_ok hcandidates
  -- every retained tip meets the chain
  have hmeets : ∀ retained ∈ ((candidates.filterMap id).insertionSort
      RetainedSideTip.Before).take maxRetainedSideBranchTips, Meets store chain retained.hash := by
    intro retained hretained
    have hsorted := (List.perm_insertionSort _ _).mem_iff.mp (List.mem_of_mem_take hretained)
    obtain ⟨candidate, hcandidate, heq⟩ := List.mem_filterMap.mp hsorted
    rw [id_eq] at heq
    obtain ⟨indexed, -, hcompute⟩ := (mem_of_mapM_eq_ok hrun).mp hcandidate
    obtain ⟨candidate', hcompute', hspec⟩ := tree.exists_retentionCandidate tip tipHeight indexed
    rw [hcompute, Except.ok.injEq] at hcompute'
    obtain ⟨hhash, hmeet⟩ := hspec retained (hcompute' ▸ heq)
    rw [hhash]
    exact hmeet
  obtain ⟨keep, hkeep, hsub, hclosed, -⟩ := tree.exists_keepBranches hmeets
    (fun hash h => (hcanonical hash).mpr h)
    (fun link hheld h => .inl ((hcanonical _).mp h))
  refine ⟨(headers.map Prod.fst).filter (· ∉ keep), ?_, fun hash hhash => ?_,
    fun link hheld hkept => ?_⟩
  · simp only [pruneHashes, hheaders, ok_bind, hrun, hkeep]
    rfl
  · obtain ⟨hfst, -⟩ := List.mem_filter.mp hhash
    obtain ⟨indexed, hindexed, rfl⟩ := List.mem_map.mp hfst
    exact fun h => ((hmem indexed).mp hindexed).1 ((hcanonical _).mpr h)
  · by_cases hon : link.hash ∈ chain.map Link.hash
    · exact .inl hon
    -- a block off the chain that is not pruned has been kept
    have hin : link.hash ∈ keep := by
      by_contra hout
      refine hkept (List.mem_filter.mpr ⟨List.mem_map.mpr ⟨(link.hash, link.header), ?_, rfl⟩, ?_⟩)
      · exact (hmem _).mpr ⟨fun h => hon ((hcanonical _).mp h), hheld.header⟩
      · simpa using hout
    have hparent := (hclosed link hheld hin).resolve_left hon
    refine .inr fun h => ?_
    have := (List.mem_filter.mp h).2
    simp only [decide_eq_true_eq] at this
    exact this hparent

/-- **A pruned tree is a tree.** -/
theorem prune {hashes : List Hash256} (spared : ∀ hash ∈ hashes, hash ∉ chain.map Link.hash)
    (parents : ∀ link : Link, store.Holds link → link.hash ∉ hashes →
      link.hash ∈ chain.map Link.hash ∨ link.header.prevHash ∉ hashes) :
    Tree (store.pruneKnownBlocks hashes) networkMagic chainId chain := by
  have hlookup : ∀ hash : Hash256, (store.pruneKnownBlocks hashes).blocks[hash]? =
      if hash ∈ hashes then none else store.blocks[hash]? := Table.getElem?_eraseAll _ _
  have hbody : ∀ hash : Hash256, (store.pruneKnownBlocks hashes).blockBodies[hash]? =
      if hash ∈ hashes then none else store.blockBodies[hash]? := Table.getElem?_eraseAll _ _
  have hholds : ∀ link : Link, store.Holds link → link.hash ∉ hashes →
      (store.pruneKnownBlocks hashes).Holds link := fun link hheld hnot =>
    ⟨by rw [hlookup, if_neg hnot, hheld.header], by rw [hbody, if_neg hnot, hheld.body]⟩
  refine ⟨tree.index, fun link hmem => hholds link (tree.onChain link hmem) fun h =>
    spared _ h (List.mem_map.mpr ⟨link, hmem, rfl⟩), tree.sound, ?_, ?_, tree.linked⟩
  · intro hash bytes hstored
    rw [hlookup] at hstored
    split at hstored
    · cases hstored
    rename_i hnot
    obtain ⟨link, rfl, hheld, hsound, hattached⟩ := tree.held hash bytes hstored
    refine ⟨link, rfl, hholds link hheld hnot, hsound, ?_⟩
    rcases hattached with hroot | ⟨parent, hparent, hparentHeld, hheight⟩
    · exact .inl hroot
    · refine .inr ⟨parent, hparent, hholds parent hparentHeld ?_, hheight⟩
      rw [hparent]
      rcases parents link hheld hnot with hon | hkept
      · intro hpruned
        rcases tree.prevHash_of_mem hheld hon with hzero | hmem
        · have := hsound.height_eq_zero_iff.mpr hzero
          rw [this, UInt64.toNat_zero] at hheight
          omega
        · exact spared _ hpruned hmem
      · exact hkept
  · intro hash hstored
    rw [hbody] at hstored
    rw [hlookup]
    split at hstored
    · exact absurd rfl hstored
    · rename_i hnot
      rw [if_neg hnot]
      exact tree.bodies hash hstored

end Tree

end DomProtocol
