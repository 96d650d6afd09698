import DomProtocol.Run

/-! # The unspent set and its replay

A node that opens its store replays the canonical chain and compares the unspent set it gets with the
stored one. **`Canonical.reconstruct_eq`**: on every state that records a chain the replay succeeds
and gives `unspentAfter chain`.

Whether the stored set agrees depends on reorganizations. An output that is unspent at the fork, then
spent and created again on the old branch, comes back with the entry of the second creation. If the
new branch does not spend it, the stored entry stays wrong (**`Revives`**), and this is the only way:
**`utxo_set_exact`**. -/

namespace DomProtocol

open Table

open Ledger

section

variable [Primitives]

variable {chain : List Link} {s : ChainState}

/-! ## Replaying a block -/

/-- The table has the encoded entries of a ledger. -/
def Records (utxos : Table (Octets 33) Bytes) (ledger : Octets 33 → Option UtxoEntry) : Prop :=
  ∀ k : Octets 33, utxos[k]? = (ledger k).map UtxoEntry.toBytes

variable {utxos : Table (Octets 33) Bytes} {ledger : Octets 33 → Option UtxoEntry}

omit [Primitives] in
/-- Replaying one part of a block: what it spends is deleted, then what it creates is inserted. -/
theorem Records.replayPart
    (records : Records utxos ledger) {part : Effect (Octets 33) UtxoEntry} (wf : part.WellFormed)
    (fits : part.Fits ledger) (missing : Octets 33 → DomError)
    (duplicate : Octets 33 × Bytes → DomError) :
    ∃ utxos', (do
        let utxos ← deleteAll missing part.spends utxos
        putAllNew duplicate (storedEntries part.creates) utxos) = .ok utxos' ∧
      Records utxos' (part.apply ledger) := by
  simp only [bind_eq_ok, deleteAll_eq_ok, putAllNew_eq_ok, map_fst_storedEntries]
  refine ⟨_, ⟨_, ⟨⟨wf.spendsNodup, fun k hk => ?_⟩, rfl⟩, ⟨wf.createdNodup, fun k hk => ?_⟩, rfl⟩,
    fun k => ?_⟩
  · rw [records k, Ne, Option.map_eq_none_iff]
    exact fits.spendsPresent k hk
  · rw [getElem?_eraseAll, records k, fits.createdNew k hk, Option.map_none, ite_self]
  · rw [getElem?_insertAll (by rw [map_fst_storedEntries]; exact wf.createdNodup),
      lookup_storedEntries, getElem?_eraseAll, records k]
    by_cases hspent : k ∈ part.spends
    · rw [if_pos hspent, Effect.apply_of_spent hspent,
        Effect.lookup_creates_eq_none.mpr (wf.disjoint k hspent)]
      rfl
    · rw [if_neg hspent, Effect.apply_of_not_spent hspent]
      cases part.creates.lookup k <;> rfl

/-- What one transaction does at a height. -/
def Transaction.effect (height : BlockHeight) (tx : Transaction) : Effect (Octets 33) UtxoEntry :=
  ⟨tx.inputKeys, tx.outputEntries height⟩

/-- The parts of a block in the order of the replay: the coinbase, then the transactions. -/
def Block.parts (block : Block) : List (Effect (Octets 33) UtxoEntry) :=
  ⟨[], [block.coinbase.output.entry block.header.height true]⟩ ::
    block.transactions.map (Transaction.effect block.header.height)

theorem join_parts (block : Block) : join block.parts = (Link.block block).utxoEffect := by
  rw [join, Block.parts, List.flatMap_cons, List.flatMap_cons, List.flatMap_map, List.flatMap_map]
  rfl

omit [Primitives] in
/-- Replaying a coinbase output. -/
theorem Records.replayCoinbase (records : Records utxos ledger)
    {entry : Octets 33 × UtxoEntry} (fits : (⟨[], [entry]⟩ : Effect _ _).Fits ledger)
    (duplicate : Octets 33 × Bytes → DomError) :
    ∃ utxos', putNew duplicate utxos (entry.map id UtxoEntry.toBytes) = .ok utxos' ∧
      Records utxos' ((⟨[], [entry]⟩ : Effect _ _).apply ledger) := by
  have hnew : ledger entry.1 = none := fits.createdNew entry.1 (by simp [Effect.created])
  refine ⟨utxos.insert entry.1 entry.2.toBytes, ?_, fun k => ?_⟩
  · simp only [putNew, bind_eq_ok, rejectIf_eq_ok, pure_eq_ok, contains_eq_isSome,
      Bool.not_eq_true, Option.isSome_eq_false_iff, Option.isNone_iff_eq_none]
    refine ⟨(), ?_, rfl⟩
    show utxos[entry.1]? = none
    rw [records entry.1, hnew, Option.map_none]
  · rw [getElem?_insert, records k, Effect.apply_of_not_spent List.not_mem_nil]
    show _ = (([entry].lookup k).or (ledger k)).map UtxoEntry.toBytes
    rw [lookup_cons_eq]
    by_cases hk : entry.1 = k
    · rw [if_pos hk, if_pos hk]
      rfl
    · rw [if_neg hk, if_neg hk]
      rfl

/-- Replaying transactions, one after another. -/
theorem Records.replayTransactions (records : Records utxos ledger) {height : BlockHeight}
    {txs : List Transaction} (wf : ∀ tx ∈ txs, (tx.effect height).WellFormed)
    (fits : FitsAll (txs.map (Transaction.effect height)) ledger)
    (missing : Octets 33 → DomError) (duplicate : Octets 33 × Bytes → DomError) :
    ∃ utxos', txs.foldlM (fun utxos tx => do
        let utxos ← deleteAll missing tx.inputKeys utxos
        putAllNew duplicate (storedEntries (tx.outputEntries height)) utxos) utxos =
          .ok utxos' ∧
      Records utxos' (run (txs.map (Transaction.effect height)) ledger) := by
  induction txs generalizing utxos ledger with
  | nil => exact ⟨utxos, rfl, records⟩
  | cons tx txs ih =>
    obtain ⟨next, hnext, hrecords⟩ := records.replayPart (wf tx List.mem_cons_self) fits.1
      missing duplicate
    obtain ⟨utxos', hrun, hfinal⟩ := ih hrecords (fun tx h => wf tx (List.mem_cons_of_mem _ h))
      fits.2
    refine ⟨utxos', ?_, hfinal⟩
    rw [List.foldlM_cons]
    exact bind_eq_ok.mpr ⟨next, hnext, hrun⟩

/-- **The replay of a block does what the block does.** -/
theorem Records.replayBlock (records : Records utxos ledger) {block : Block}
    (wf : (Link.block block).utxoEffect.WellFormed) (fits : (Link.block block).utxoEffect.Fits ledger)
    (height : Nat) : ∃ utxos', DomProtocol.replayBlock height utxos block = .ok utxos' ∧
      Records utxos' ((Link.block block).utxoEffect.apply ledger) := by
  rw [← join_parts] at wf fits ⊢
  have hwf := wellFormed_of_mem wf
  obtain ⟨hfirst, hrest⟩ := fitsAll_parts wf fits
  obtain ⟨minted, hmint, hminted⟩ := records.replayCoinbase hfirst _
  obtain ⟨utxos', hrun, hfinal⟩ := hminted.replayTransactions
    (fun tx h => hwf _ (List.mem_cons_of_mem _ (List.mem_map_of_mem h))) hrest _ _
  rw [← run_parts wf]
  exact ⟨utxos', bind_eq_ok.mpr ⟨minted, hmint, hrun⟩, hfinal⟩

/-! ## Replaying the chain -/

/-- The ordinary block of a link, with its identifier. -/
def Link.toBlock : Link → Option (Hash256 × Block)
  | envelope .. => none
  | block b => some (blockId b, b)

variable {store : Store} {networkMagic : UInt32} {chainId : Hash256} {height : Nat} {link : Link}

/-- **The rebuild passes read the chain.** -/
theorem Tree.canonicalBlockAt_eq (tree : Tree store networkMagic chainId chain)
    (placed : chain[height]? = some link) (during duringDecode : String) :
    canonicalBlockAt store networkMagic during duringDecode height = .ok link.toBlock := by
  have hlt : height < chain.length := (List.getElem?_eq_some_iff.mp placed).1
  have hlength := tree.length_le
  have hindex : store.heightIndex[UInt64.ofNat height]? = some link.hash := by
    rw [tree.index, UInt64.toNat_ofNat_of_lt' (by norm_num; omega), placed, Option.map_some]
  have hmem := List.mem_of_getElem? placed
  have hsound := tree.sound link hmem
  have hheight := tree.linked.height _ _ placed
  rw [canonicalBlockAt, hindex, okOr_some, ok_bind, (tree.onChain link hmem).body, okOr_some,
    ok_bind]
  cases link with
  | envelope hash header body =>
    obtain ⟨hmagic, hzero, -, hvalid⟩ := hsound
    have hzero' : height = 0 := by
      rw [← hheight]
      exact (congrArg UInt64.toNat hzero).trans UInt64.toNat_zero
    rw [if_pos ⟨hzero', hmagic, hvalid⟩]
    rfl
  | block b =>
    obtain ⟨hordinary, hidentifier, hfacts⟩ := hsound
    have hnot : ¬ (height = 0 ∧ networkMagic = networkMagicMainnet ∧
        (validateMainnetGenesisIdentity (Link.block b).body).isOk = true) := by
      rintro ⟨hzero, hmagic, -⟩
      refine hordinary ⟨hmagic, UInt64.toNat_inj.mp ?_⟩
      rw [← Link.header_block, hheight, hzero, UInt64.toNat_zero]
    rw [if_neg hnot]
    show (mapError _ (fromBytes Block (WireFormat.encode b)) >>= _) = _
    rw [hfacts.fromBytes, mapError, ok_bind, toBytes_header, ok_bind, hidentifier, ok_bind,
      rejectIf_of_not _ (show ¬ (blockId b ≠ (Link.block b).hash) from not_not.mpr rfl), ok_bind]
    rfl

/-- One height of the replay. -/
theorem Tree.exists_replayHeight (tree : Tree store networkMagic chainId chain)
    (placed : chain[height]? = some link) (records : Records utxos ledger)
    (fits : link.utxoEffect.Fits ledger) :
    ∃ utxos', replayHeight store networkMagic utxos height = .ok utxos' ∧
      Records utxos' (link.utxoEffect.apply ledger) := by
  have hwf := (tree.sound link (List.mem_of_getElem? placed)).wellFormed
  rw [replayHeight, tree.canonicalBlockAt_eq placed, ok_bind]
  cases link with
  | envelope hash header body => exact ⟨utxos, rfl, records⟩
  | block b => exact records.replayBlock hwf fits height

/-- **The replay of the chain succeeds** and gives what the chain leaves unspent. -/
theorem Canonical.reconstruct_eq (canonical : Canonical s chain) (nonempty : chain ≠ []) :
    ∃ utxos, reconstructCanonicalUtxoSet s.store s.tipHeight s.networkMagic = .ok utxos ∧
      Records utxos (unspentAfter chain) := by
  have hinitial : ∀ n ≤ chain.length, ∃ utxos,
      (List.range n).foldlM (replayHeight s.store s.networkMagic) ∅ = .ok utxos ∧
        Records utxos (unspentAfter (chain.take n)) := by
    intro n hn
    induction n with
    | zero => exact ⟨∅, rfl, fun k => getElem?_empty k⟩
    | succ n ih =>
      obtain ⟨utxos, hrun, hrecords⟩ := ih (by omega)
      have hlink : chain[n]? = some chain[n] := List.getElem?_eq_getElem (by omega)
      have hsplit : chain = chain.take n ++ chain[n] :: chain.drop (n + 1) := by
        rw [List.cons_getElem_drop_succ, List.take_append_drop]
      have hfits := canonical.books.outputsFit
      rw [hsplit, List.map_append, List.map_cons, fitsAll_append] at hfits
      obtain ⟨next, hnext, hfinal⟩ := canonical.tree.exists_replayHeight hlink hrecords hfits.2.1
      refine ⟨next, ?_, ?_⟩
      · rw [List.range_succ, List.foldlM_append]
        refine bind_eq_ok.mpr ⟨utxos, hrun, ?_⟩
        rw [List.foldlM_cons]
        exact bind_eq_ok.mpr ⟨next, hnext, rfl⟩
      · rw [List.take_add_one, hlink, Option.toList_some, unspentAfter, List.map_append,
          List.map_singleton, run_append]
        exact hfinal
  have hpos : 0 < chain.length := List.length_pos_iff.mpr nonempty
  rw [reconstructCanonicalUtxoSet, canonical.tipHeight, Nat.sub_add_cancel hpos]
  simpa using hinitial chain.length le_rfl

/-! ## Entries tell their height -/

variable {k : Octets 33} {entry : UtxoEntry}

/-- The entries of a block have its height. -/
theorem Block.blockHeight_of_lookup {block : Block}
    (created : block.outputEntries.lookup k = some entry) :
    entry.blockHeight = block.header.height := by
  have hmem : (k, entry) ∈ block.outputEntries := by
    obtain ⟨before, after, heq, -⟩ := List.lookup_eq_some_iff.mp created
    rw [heq]
    exact List.mem_append_right _ List.mem_cons_self
  rw [Block.outputEntries, List.mem_cons, List.mem_flatMap] at hmem
  rcases hmem with heq | ⟨tx, -, hmem⟩
  · rw [Prod.mk.injEq] at heq
    rw [heq.2]
    rfl
  · obtain ⟨output, -, heq⟩ := List.mem_map.mp hmem
    rw [← (Prod.mk.inj heq).2]

/-- An unspent output of a linked chain was created below its length. -/
theorem Linked.blockHeight_lt (linked : Linked chain)
    (unspent : unspentAfter chain k = some entry) : entry.blockHeight.toNat < chain.length := by
  obtain ⟨effect, hmem, hlookup⟩ :=
    List.exists_of_findSome?_eq_some (lastCreation_of_run unspent)
  rw [List.mem_reverse, List.mem_map] at hmem
  obtain ⟨link, hlink, rfl⟩ := hmem
  obtain ⟨i, hi⟩ := List.mem_iff_getElem?.mp hlink
  cases link with
  | envelope hash header body => cases hlookup
  | block b =>
    rw [Block.blockHeight_of_lookup hlookup, ← Link.header_block, linked.height i _ hi]
    exact (List.getElem?_eq_some_iff.mp hi).1

variable {front : List Link} {old : List Block}

/-- An output of the old branch was created above the common part. -/
theorem Linked.le_blockHeight (linked : Linked (front ++ old.map Link.block))
    (created : firstCreation (utxoEffects old) k = some entry) :
    front.length ≤ entry.blockHeight.toNat := by
  obtain ⟨effect, hmem, hlookup⟩ := List.exists_of_findSome?_eq_some created
  obtain ⟨b, hb, rfl⟩ := List.mem_map.mp hmem
  obtain ⟨i, hi⟩ := List.mem_iff_getElem?.mp hb
  have hindex : (front ++ old.map Link.block)[front.length + i]? = some (.block b) := by
    rw [List.getElem?_append_right (by omega), Nat.add_sub_cancel_left, List.getElem?_map, hi]
    rfl
  rw [Block.blockHeight_of_lookup hlookup, ← Link.header_block, linked.height _ _ hindex]
  omega

theorem unspentAfter_append (front : List Link) (blocks : List Block) :
    unspentAfter (front ++ blocks.map Link.block) =
      run (utxoEffects blocks) (unspentAfter front) := by
  rw [unspentAfter, map_utxoEffect_append, run_append]
  rfl

variable {fork : ChainState.Fork} {new : List Block}

/-- **When a reorganization leaves the books exact**, given that they were exact: every output that is
unspent at the fork and created again on the old branch is spent on the new one. -/
theorem IsFork.newLedger_eq_iff {newTip : Hash256} (isFork : IsFork s chain newTip fork front old new)
    (canonical : Canonical s chain) (agree : s.store.ledger = unspentAfter chain)
    (fits : FitsAll (utxoEffects new) (unspentAfter front)) :
    IsFork.newLedger s front old new = unspentAfter (front ++ new.map Link.block) ↔
      ∀ k, unspentAfter front k ≠ none → (∃ block ∈ old, k ∈ block.outputKeys) →
        ∃ block ∈ new, k ∈ block.inputKeys := by
  have hlinked : Linked (front ++ old.map Link.block) := isFork.split ▸ canonical.tree.linked
  have hdiffers : ∀ k v w, unspentAfter front k = some v →
      firstCreation (utxoEffects old) k = some w → v ≠ w := by
    rintro k v w hv hw rfl
    have hlt := hlinked.of_append.blockHeight_lt hv
    have hle := hlinked.le_blockHeight hw
    omega
  rw [newLedger, isFork.undoneLedger_eq_rehome canonical agree, unspentAfter_append]
  refine (run_rehome_iff fits hdiffers).trans (forall_congr' fun k => ?_)
  have hcreated : firstCreation (utxoEffects old) k ≠ none ↔ ∃ block ∈ old, k ∈ block.outputKeys := by
    rw [Ne, firstCreation_eq_none]
    simp only [utxoEffects, List.mem_map, forall_exists_index, and_imp, forall_apply_eq_imp_iff₂,
      not_forall, not_not, exists_prop]
    refine exists_congr fun block => and_congr_right fun _ => ?_
    rw [← Link.map_fst_outputEntries]
    rfl
  have hspent : SpentIn (utxoEffects new) k ↔ ∃ block ∈ new, k ∈ block.inputKeys := by
    simp only [SpentIn, utxoEffects, List.mem_map, exists_exists_and_eq_and]
    rfl
  rw [hcreated, hspent]

/-! ## The branch of a delivered block -/

theorem Descends.congr {store' : Store} {ancestor : Hash256} {blocks : List Block}
    {tip : Hash256} (descends : Descends store ancestor blocks tip)
    (holds : ∀ block ∈ blocks, store.Holds (.block block) → store'.Holds (.block block)) :
    Descends store' ancestor blocks tip := by
  induction blocks generalizing tip with
  | nil => exact descends
  | cons block blocks ih =>
    obtain ⟨htip, hheld, habove, hrest⟩ := descends
    exact ⟨htip, holds block List.mem_cons_self hheld, habove,
      ih hrest fun other h => holds other (List.mem_cons_of_mem _ h)⟩

variable {hashes : List Hash256}

/-- What is held next to a side block was held before it came. -/
theorem Store.Holds.of_withSideBlock {block other : Block}
    (held : ((s.withSideBlock block).without hashes).store.Holds (.block other))
    (different : blockId block ≠ blockId other) : s.store.Holds (.block other) := by
  have hlookup : ∀ (table : Table Hash256 Bytes) (value bytes : Bytes),
      (eraseAll hashes (table.insert (blockId block) value))[blockId other]? = some bytes →
        table[blockId other]? = some bytes := by
    intro table value bytes h
    rw [getElem?_eraseAll, getElem?_insert, if_neg different] at h
    split at h
    · cases h
    · exact h
  exact ⟨hlookup _ _ _ held.header, hlookup _ _ _ held.body⟩

/-- **The new branch is a stored branch and the delivered block on top.** -/
theorem IsFork.exists_branch {block : Block}
    (isFork : IsFork ((s.withSideBlock block).without hashes) chain (blockId block) fork front old
      new)
    (canonical : Canonical s chain) (kept : Canonical ((s.withSideBlock block).without hashes) chain)
    (admitted : Admitted s block) :
    ∃ branch, new = branch.reverse ++ [block] ∧
      Descends s.store (tipHashOf front) branch block.header.prevHash := by
  have hdescends := isFork.descends
  cases hnew : new.reverse with
  | nil =>
    -- the block would be on the chain, but it is new
    exfalso
    rw [hnew] at hdescends
    obtain ⟨link, hlink, htip⟩ := Tree.getElem?_of_tipHashOf isFork.split isFork.nonempty
    have hstored := (canonical.tree.onChain link (List.mem_of_getElem? hlink)).header
    rw [← htip, ← hdescends, admitted.fresh] at hstored
    cases hstored
  | cons top branch =>
    rw [hnew] at hdescends
    obtain ⟨hid, hheld, -, hrest⟩ := hdescends
    have hsplit : new = branch.reverse ++ [top] := by
      rw [← List.reverse_cons, ← hnew, List.reverse_reverse]
    have hbody := hheld.body
    change (eraseAll hashes (s.store.blockBodies.insert (blockId block)
      (WireFormat.encode block)))[blockId top]? = some (WireFormat.encode top) at hbody
    rw [getElem?_eraseAll, getElem?_insert, if_pos hid] at hbody
    have hencode : WireFormat.encode block = WireFormat.encode top := by
      split at hbody
      · cases hbody
      · exact Option.some.inj hbody
    have hread := (isFork.sound top (by rw [hsplit]; simp)).2.2.fromBytes
    rw [← hencode, admitted.sound.2.2.fromBytes, Except.ok.injEq] at hread
    subst hread
    refine ⟨branch, hsplit, hrest.congr fun other hmem hother => hother.of_withSideBlock ?_⟩
    -- a block below is at a lower height
    intro heq
    obtain ⟨hlinked, -, -⟩ := isFork.linked kept.tree
    obtain ⟨i, hi⟩ := List.mem_iff_getElem?.mp (List.mem_reverse.mpr hmem)
    have hheader : block.header = other.header := hheld.header_eq hother heq
    have hlow : (front ++ new.map Link.block)[front.length + i]? = some (.block other) := by
      rw [List.getElem?_append_right (by omega), Nat.add_sub_cancel_left, hsplit, List.map_append,
        List.getElem?_append_left (by simpa using (List.getElem?_eq_some_iff.mp hi).1),
        List.getElem?_map, hi]
      rfl
    have htop : (front ++ new.map Link.block)[front.length + branch.length]? =
        some (.block block) := by
      rw [List.getElem?_append_right (by omega), Nat.add_sub_cancel_left, hsplit, List.map_append,
        List.getElem?_append_right (by simp)]
      simp
    have hi' := (List.getElem?_eq_some_iff.mp hi).1
    have hheights := (hlinked.height _ _ hlow).symm.trans
      ((congrArg (fun h : BlockHeader => h.height.toNat) hheader.symm).trans
        (hlinked.height _ _ htop))
    rw [List.length_reverse] at hi'
    omega

/-! ## Exactness along a run -/

/-- **The branch of a block revives an output**: the output is unspent where the branch leaves the
chain, created again on the chain above, and spent neither on the stored branch nor by the block. -/
def Revives (s : ChainState) (block : Block) (k : Octets 33) : Prop :=
  ∃ (chain front : List Link) (old branch : List Block), Canonical s chain ∧
    chain = front ++ old.map Link.block ∧ front ≠ [] ∧
    Descends s.store (tipHashOf front) branch block.header.prevHash ∧
    unspentAfter front k ≠ none ∧ (∃ other ∈ old, k ∈ other.outputKeys) ∧
    ∀ other ∈ block :: branch, k ∉ other.inputKeys

/-- **A call keeps the books exact** unless it promotes a branch that revives an output. -/
theorem Moves.exact {block : Block} {now : Timestamp} {s' : ChainState}
    {result : Result ConnectResult} {chain' : List Link}
    (moves : Moves s chain block now s' result chain') (canonical : Canonical s chain)
    (canonical' : Canonical s' chain') (agree : s.store.ledger = unspentAfter chain)
    (unrevived : s.outranksTip block.header (blockId block) = true → ∀ k, ¬ Revives s block k) :
    s'.store.ledger = unspentAfter chain' := by
  cases moves with
  | rejected => exact agree
  | known => exact agree
  | stored => exact agree
  | extended hashes admitted =>
    obtain ⟨-, hledger⟩ : (s.store.extended block (blockId block)).WellEncoded ∧ _ :=
      Store.ledger_extended canonical.books.encoded admitted.sound.2.2
    show (s.store.extended block (blockId block)).ledger = _
    rw [hledger, agree, unspentAfter, unspentAfter, List.map_append, List.map_singleton,
      run_append]
    rfl
  | @reorganized hashes hashes' admitted _ outranks _ kept keeps hkept _ store' _ fork front old new
      isFork switched =>
      subst keeps
      obtain ⟨branch, hnew, hbranch⟩ := isFork.exists_branch canonical hkept admitted
      have hfits := canonical'.books.outputsFit
      rw [map_utxoEffect_append, fitsAll_append] at hfits
      show store'.ledger = _
      rw [(Store.WellEncoded.of_eq switched.utxos).2, isFork.newLedger_eq_iff hkept agree hfits.2]
      intro k hunspent hcreated
      by_contra hnever
      refine unrevived outranks k ⟨chain, front, old, branch, canonical, isFork.split,
        isFork.nonempty, hbranch, hunspent, hcreated, fun other hmem hspent => hnever ?_⟩
      refine ⟨other, ?_, hspent⟩
      rw [hnew, List.mem_append, List.mem_reverse, List.mem_singleton]
      exact (List.mem_cons.mp hmem).symm

/-- No delivery of a run promotes a branch that revives an output. -/
def ChainState.NeverRevives (s : ChainState) (deliveries : List Delivery) : Prop :=
  ∀ before delivery after, deliveries = before ++ delivery :: after →
    (s.deliver before).outranksTip delivery.1.header (blockId delivery.1) = true →
      ∀ k, ¬ Revives (s.deliver before) delivery.1 k

/-- The books stay exact along a run. -/
theorem Canonical.deliver_exact (canonical : Canonical s chain)
    (agree : s.store.ledger = unspentAfter chain) {deliveries : List Delivery}
    (unrevived : s.NeverRevives deliveries) :
    ∃ chain', Canonical (s.deliver deliveries) chain' ∧
      (s.deliver deliveries).store.ledger = unspentAfter chain' := by
  induction deliveries generalizing s chain with
  | nil => exact ⟨chain, canonical, agree⟩
  | cons delivery deliveries ih =>
    obtain ⟨s', result, chain', hrun, hcanonical, hmoves⟩ :=
      canonical.connectBlock delivery.1 delivery.2
    have hexact := hmoves.exact canonical hcanonical agree
      (unrevived [] delivery deliveries rfl)
    rw [ChainState.deliver_cons, hrun]
    refine ih hcanonical hexact fun before next after heq => ?_
    have hlater := unrevived (delivery :: before) next after (by rw [heq]; rfl)
    rwa [ChainState.deliver_cons, hrun] at hlater

/-- **The stored unspent set is the one the node would rebuild**, and opening the store reports no
difference. Without a chain there is nothing to spend. -/
def UtxoExact (s : ChainState) : Prop :=
  (s.store.tip = none ∧ s.store.utxos = ∅) ∨
    (reconstructCanonicalUtxoSet s.store s.tipHeight s.networkMagic = .ok s.store.utxos ∧
      (ensureCanonicalUtxoSet s.store s.tipHeight s.networkMagic false).isOk = true)

/-- Exact books are what the replay gives. -/
theorem Canonical.utxoExact (canonical : Canonical s chain)
    (agree : s.store.ledger = unspentAfter chain) : UtxoExact s := by
  have hrecords : Records s.store.utxos (unspentAfter chain) := fun k =>
    agree ▸ canonical.books.encoded.utxos_eq k
  by_cases hempty : chain = []
  · subst hempty
    refine .inl ⟨canonical.storeTip, Std.ExtTreeMap.ext_getElem? fun k => ?_⟩
    rw [hrecords k, getElem?_empty]
    rfl
  · obtain ⟨utxos, hreplay, hreplayed⟩ := canonical.reconstruct_eq hempty
    obtain rfl : utxos = s.store.utxos := Std.ExtTreeMap.ext_getElem? fun k => by
      rw [hreplayed k, hrecords k]
    refine .inr ⟨hreplay, ?_⟩
    rw [ensureCanonicalUtxoSet, hreplay, ok_bind, if_pos rfl]
    rfl

/-- A start has exact books. -/
theorem Canonical.exact_of_empty (canonical : Canonical s chain) (empty : s.store.utxos = ∅) :
    s.store.ledger = unspentAfter chain := by
  funext k
  have hnone : s.store.ledger k = none := by
    rw [Store.ledger, empty, getElem?_empty]
    rfl
  rw [hnone, eq_comm, ← canonical.books.domain k, hnone]

/-- **The unspent set is exact after every call**, as long as no call promotes a branch that revives
an output. -/
theorem utxo_set_exact {genesisHash : Hash256} {networkMagic : UInt32}
    (started : Started genesisHash networkMagic s) (deliveries : List Delivery)
    (unrevived : s.NeverRevives deliveries) (before after : List Delivery)
    (split : deliveries = before ++ after) : UtxoExact (s.deliver before) := by
  obtain ⟨chain, hchain, hempty⟩ := Canonical.of_started started
  have hbefore : s.NeverRevives before := fun first delivery rest heq =>
    unrevived first delivery (rest ++ after) (by rw [split, heq, List.append_assoc]; rfl)
  obtain ⟨chain', hcanonical, hexact⟩ := hchain.deliver_exact (hchain.exact_of_empty hempty) hbefore
  exact hcanonical.utxoExact hexact

/-- **A branch revives nothing while the chain has at most one block on its genesis**: an output that
the block creates again was unspent, and it may not be created then. -/
theorem not_revives_of_tipHeight (low : s.tipHeight.toNat ≤ 1) (block : Block) (k : Octets 33) :
    ¬ Revives s block k := by
  rintro ⟨chain, front, old, branch, hcanonical, hsplit, hne, -, hunspent, ⟨other, hother, hkey⟩, -⟩
  have hlength := hcanonical.tipHeight
  have hfront := List.length_pos_iff.mpr hne
  have hold := List.length_pos_of_mem hother
  rw [hsplit, List.length_append, List.length_map] at hlength
  obtain ⟨first, rfl⟩ := List.length_eq_one_iff.mp (show old.length = 1 by omega)
  obtain rfl := List.mem_singleton.mp hother
  have hfits := hcanonical.books.outputsFit
  rw [hsplit, List.map_append, fitsAll_append] at hfits
  refine hunspent (hfits.2.1.createdNew k ?_)
  rw [show (Link.block other).utxoEffect.created = other.outputKeys from
    Link.map_fst_outputEntries other]
  exact hkey

/-- Nor does a run on such chains. -/
theorem neverRevives_of_tipHeight {deliveries : List Delivery}
    (low : ∀ before ∈ deliveries.inits, (s.deliver before).tipHeight.toNat ≤ 1) :
    s.NeverRevives deliveries := by
  intro before delivery after heq _ k
  refine not_revives_of_tipHeight (low before ?_) _ k
  rw [List.mem_inits, heq]
  exact List.prefix_append _ _

end

namespace Transparent

attribute [local instance] primitives

/-- Genesis, a block on it, and a competing block that takes over. -/
theorem utxo_set_exact_reorganized :
    (regtestRun siblings).tipHash = hashOf 1 3 ∧ UtxoExact (regtestRun siblings) := by
  refine ⟨by decide +kernel, ?_⟩
  exact utxo_set_exact (.fresh networkMagicRegtest) _
    (neverRevives_of_tipHeight (by decide +kernel)) _ [] (List.append_nil _).symm

/-- The output of genesis is spent at height 2 and created again at height 3; then a branch from
height 1, of the same work and a lower hash, takes over. -/
def revivingBlocks : List Block :=
  [regtestBlock 0 5 5 [], regtestBlock 1 5 5 [],
    regtestBlock 2 5 5 [transfer [(6, reward)] [(11, reward)] 5],
    regtestBlock 3 5 5 [transfer [(11, reward), (2 ^ 64 + 6, reward)]
      [(6, reward), (2 ^ 64 + 12, reward)] 1],
    regtestBlock 2 3 5 [], regtestBlock 3 3 3 []]

theorem utxo_set_diverges : ¬ UtxoExact (regtestRun revivingBlocks) := by
  have hrun : ((regtestRun revivingBlocks).store.tip.isSome &&
      !(ensureCanonicalUtxoSet (regtestRun revivingBlocks).store
        (regtestRun revivingBlocks).tipHeight (regtestRun revivingBlocks).networkMagic
          false).isOk) = true := by
    decide +kernel
  rw [Bool.and_eq_true, Bool.not_eq_true'] at hrun
  rintro (⟨htip, -⟩ | ⟨-, hopen⟩)
  · rw [htip] at hrun
    exact absurd hrun.1 (by decide)
  · rw [hopen] at hrun
    exact absurd hrun.2 (by decide)

end Transparent

end DomProtocol
