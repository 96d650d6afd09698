import DomProtocol.Run

/-! # What holds after every run

Results about every run of `connect_block` calls, from an empty store or from the mainnet genesis:

* **`kernel_index_exact`**: the kernel index is the list of the kernels of the canonical chain, and no
  kernel occurs twice on it;
* **`fork_choice_order_independent`**: the tip does not depend on the order of arrival;
* **`rejected_block_keeps_chain`**: a call that fails leaves the canonical chain as it was;
* **`buried_links_stay`**: no call disconnects a block with `maxReorgDepth` descendants. -/

namespace DomProtocol

open Ledger

section

variable [Primitives]

variable {genesisHash : Hash256} {networkMagic : UInt32} {s : ChainState} {chain : List Link}

variable {excess : Octets 33} {hash : Hash256} {store : Store}

/-! ## The kernel index -/

end

namespace Transparent

attribute [local instance] primitives

end Transparent

section

variable [Primitives]

variable {networkMagic : UInt32} {s : ChainState} {chain : List Link}

/-! ## Fork choice -/

/-- A tip as fork choice sees it. -/
structure Tip where
  hash : Hash256
  height : BlockHeight
  difficulty : U256

/-- The tip a block would be. -/
def BlockHeader.asTip (header : BlockHeader) (hash : Hash256) : Tip :=
  ⟨hash, header.height, header.totalDifficulty⟩

/-- The tip of a state. -/
def ChainState.tip (s : ChainState) : Tip := ⟨s.tipHash, s.tipHeight, s.tipDifficulty⟩

namespace Tip

/-- Fork choice prefers the first tip. -/
def Outranks (a b : Tip) : Prop :=
  isBetterForkChoiceTip a.difficulty a.hash b.difficulty b.hash = true

instance (a b : Tip) : Decidable (a.Outranks b) := inferInstanceAs (Decidable (_ = true))

section

omit [Primitives]

theorem outranks_iff {a b : Tip} : a.Outranks b ↔
    b.difficulty.toNat < a.difficulty.toNat ∨
      a.difficulty.toNat = b.difficulty.toNat ∧ a.hash.toNat < b.hash.toNat := by
  rw [Outranks, isBetterForkChoiceTip, decide_eq_true_eq, gt_iff_lt, BitVec.lt_def,
    ← BitVec.toNat_inj, BitVec.lt_def]

theorem not_outranks_self (a : Tip) : ¬ a.Outranks a := by
  rw [outranks_iff]
  omega

/-- What outranks a tip is not outranked by what the tip outranks or equals. -/
theorem not_outranks_of_outranks {a b c : Tip} (h : b.Outranks a) (h' : ¬ c.Outranks a) :
    ¬ c.Outranks b := by
  rw [outranks_iff] at *
  omega

/-- Two tips of which neither outranks the other are the same block. -/
theorem hash_eq_of_not_outranks {a b : Tip} (h : ¬ a.Outranks b) (h' : ¬ b.Outranks a) :
    a.hash = b.hash ∧ a.difficulty = b.difficulty := by
  rw [outranks_iff] at h h'
  constructor
  · exact BitVec.eq_of_toNat_eq (by omega)
  · exact BitVec.eq_of_toNat_eq (by omega)

end

end Tip

/-- A store with a block has a chain below it. -/
theorem Tree.ne_nil_of_holds {store : Store} {chainId : Hash256}
    (tree : Tree store networkMagic chainId chain) {link : Link} (held : store.Holds link) :
    chain ≠ [] := by
  -- by induction on the height: genesis is on the chain, any other block has a parent below it
  induction hn : link.header.height.toNat using Nat.strong_induction_on generalizing link with
  | _ n ih =>
    obtain ⟨other, hhash, hheld, -, hattached⟩ := tree.held _ _ held.header
    have hheader := hheld.header_eq held hhash
    rcases hattached with ⟨-, hmem⟩ | ⟨parent, -, hparent, hheight⟩
    · rintro rfl
      cases hmem
    · rw [hheader, hn] at hheight
      exact ih _ (by omega) hparent rfl

/-- The hash of a block on a network. -/
def Identifies (networkMagic : UInt32) (block : Block) (hash : Hash256) : Prop :=
  canonicalHeaderIdentifier networkMagic (headerBytes block.header) = .ok hash

namespace Moves

variable {block : Block} {now : Timestamp} {s' : ChainState} {result : Result ConnectResult}
  {chain' : List Link}

variable (moves : Moves s chain block now s' result chain')
include moves

/-- No call leaves the network. -/
theorem networkMagic_eq : s'.networkMagic = s.networkMagic := by
  cases moves with
  | reorganized _ _ _ _ _ _ keeps => subst keeps; rfl
  | _ => rfl

/-- A call stores at most its own block. -/
theorem stored_of_stored {hash : Hash256} (stored : s'.store.blocks[hash]? ≠ none) :
    s.store.blocks[hash]? ≠ none ∨ hash = blockId block ∧ Admitted s block := by
  have hinsert : ∀ hashes : List Hash256, Admitted s block →
      (Table.eraseAll hashes (s.store.blocks.insert (blockId block)
        (headerBytes block.header)))[hash]? ≠ none →
      s.store.blocks[hash]? ≠ none ∨ hash = blockId block ∧ Admitted s block := by
    intro hashes admitted h
    rw [Table.getElem?_eraseAll, Table.getElem?_insert] at h
    by_cases heq : blockId block = hash
    · exact .inr ⟨heq.symm, admitted⟩
    · rw [if_neg heq] at h
      exact .inl fun hnone => h (by rw [hnone]; exact ite_self _)
  cases moves with
  | rejected => exact .inl stored
  | known => exact .inl stored
  | extended hashes admitted => exact hinsert hashes admitted stored
  | stored hashes _ admitted => exact hinsert hashes admitted stored
  | @reorganized hashes hashes' admitted _ _ _ _ keeps _ _ store' _ _ _ _ _ _ switched =>
    subst keeps
    refine hinsert hashes admitted fun hnone => stored ?_
    have hkept : store'.blocks[hash]? = none := by
      rw [switched.blocks]
      exact hnone
    show (Table.eraseAll hashes' store'.blocks)[hash]? = none
    rw [Table.getElem?_eraseAll, hkept, ite_self]

/-- **An accepted call moves the tip to the block exactly when the block outranks it.** -/
theorem tip_eq (canonical : Canonical s chain) (accepted : result.isOk = true) :
    (s'.tip = s.tip ∧ ∃ hash, Identifies s.networkMagic block hash ∧
      (s.store.blocks[hash]? ≠ none ∨
        chain ≠ [] ∧ ¬ (block.header.asTip hash).Outranks s.tip)) ∨
      s'.tip = block.header.asTip (blockId block) ∧ s'.tip.Outranks s.tip ∧
        Identifies s.networkMagic block (blockId block) := by
  cases moves with
  | rejected => cases accepted
  | known hash identifier stored => exact .inl ⟨rfl, hash, identifier, .inl stored⟩
  | extended hashes admitted _ outranks => exact .inr ⟨rfl, outranks, admitted.sound.2.1⟩
  | stored hashes _ admitted side _ outcome =>
    rcases outcome with ⟨hbelow, -⟩ | ⟨e, -, rfl⟩
    · obtain ⟨parent, -, hparent, -⟩ := admitted.exists_parent canonical fun h => side (.inl h)
      refine .inl ⟨rfl, _, admitted.sound.2.1, .inr ⟨canonical.tree.ne_nil_of_holds hparent, ?_⟩⟩
      exact Bool.eq_false_iff.mp hbelow
    · cases accepted
  | reorganized _ _ admitted _ outranks _ keeps =>
    subst keeps
    exact .inr ⟨rfl, outranks, admitted.sound.2.1⟩

end Moves

/-- Every call of a run returns a success. -/
def ChainState.Accepts (s : ChainState) : List Delivery → Prop
  | [] => True
  | delivery :: deliveries => (s.connectBlock delivery.1 delivery.2).2.isOk = true ∧
      (s.connectBlock delivery.1 delivery.2).1.Accepts deliveries

instance ChainState.decidableAccepts : (s : ChainState) → (deliveries : List Delivery) →
    Decidable (s.Accepts deliveries)
  | _, [] => .isTrue trivial
  | s, delivery :: deliveries =>
    have := decidableAccepts (s.connectBlock delivery.1 delivery.2).1 deliveries
    inferInstanceAs (Decidable (_ ∧ _))

/-- **The tip is the best of the tip at the start and the delivered blocks.** -/
structure Chosen (s : ChainState) (chain : List Link) (delivered : List Block) (s' : ChainState) :
    Prop where
  magic : s'.networkMagic = s.networkMagic
  stored : ∀ hash : Hash256, s'.store.blocks[hash]? ≠ none →
    s.store.blocks[hash]? ≠ none ∨ ∃ block ∈ delivered, Identifies s.networkMagic block hash
  best : ∀ block ∈ delivered, ∀ hash, Identifies s.networkMagic block hash →
    ¬ (block.header.asTip hash).Outranks s'.tip
  start : ¬ s.tip.Outranks s'.tip
  origin : (s'.tip = s.tip ∧ (chain = [] → delivered = [])) ∨
    ∃ block ∈ delivered, ∃ hash, Identifies s.networkMagic block hash ∧
      s'.tip = block.header.asTip hash

/-- The blocks are new to the store, and their hashes tell their headers apart. -/
structure Distinct (s : ChainState) (blocks : List Block) : Prop where
  unknown : ∀ block ∈ blocks, ∀ hash, Identifies s.networkMagic block hash →
    s.store.blocks[hash]? = none
  injective : ∀ block ∈ blocks, ∀ other ∈ blocks, ∀ hash, Identifies s.networkMagic block hash →
    Identifies s.networkMagic other hash → block.header = other.header

namespace Chosen

variable {delivered : List Block} {s' : ChainState}

theorem nil (s : ChainState) (chain : List Link) : Chosen s chain [] s where
  magic := rfl
  stored := fun _ h => .inl h
  best := fun _ h => absurd h List.not_mem_nil
  start := Tip.not_outranks_self _
  origin := .inl ⟨rfl, fun _ => rfl⟩

/-- One more accepted block. -/
theorem concat {block : Block} {now : Timestamp} {s'' : ChainState} {chain' chain'' : List Link}
    {result : Result ConnectResult} (chosen : Chosen s chain delivered s')
    (canonical : Canonical s chain) (canonical' : Canonical s' chain')
    (distinct : Distinct s (delivered ++ [block]))
    (moves : Moves s' chain' block now s'' result chain'') (accepted : result.isOk = true) :
    Chosen s chain (delivered ++ [block]) s'' := by
  have hmem : block ∈ delivered ++ [block] := by simp
  have hmagic := moves.networkMagic_eq.trans chosen.magic
  have hstored : ∀ hash : Hash256, s''.store.blocks[hash]? ≠ none → s.store.blocks[hash]? ≠ none ∨
      ∃ other ∈ delivered ++ [block], Identifies s.networkMagic other hash := by
    intro hash h
    rcases moves.stored_of_stored h with h | ⟨rfl, admitted⟩
    · refine (chosen.stored hash h).imp_right fun ⟨other, hother, hid⟩ => ?_
      exact ⟨other, List.mem_append_left _ hother, hid⟩
    · exact .inr ⟨block, hmem, chosen.magic ▸ admitted.sound.2.1⟩
  have htip := moves.tip_eq canonical' accepted
  rw [chosen.magic] at htip
  rcases htip with ⟨hsame, hash, hid, hcase⟩ | ⟨htip, houtranks, hid⟩
  · refine ⟨hmagic, hstored, ?_, hsame ▸ chosen.start, ?_⟩
    · -- the new block does not outrank the tip: it is a known one, or fork choice said so
      intro other hother hash' hid'
      rw [hsame]
      rcases mem_snoc.mp hother with hother | hlast
      · exact chosen.best other hother hash' hid'
      rw [hlast] at hid' ⊢
      obtain rfl : hash = hash' := Except.ok.inj (hid.symm.trans hid')
      rcases hcase with hknown | ⟨-, hbelow⟩
      · rcases chosen.stored hash hknown with h | ⟨first, hfirst, hfirstId⟩
        · exact absurd (distinct.unknown block hmem hash hid) h
        · rw [distinct.injective block hmem first (List.mem_append_left _ hfirst) hash hid hfirstId]
          exact chosen.best first hfirst hash hfirstId
      · exact hbelow
    · rw [hsame]
      rcases chosen.origin with ⟨heq, hempty⟩ | ⟨first, hfirst, hrest⟩
      · refine .inl ⟨heq, fun hnil => ?_⟩
        exfalso
        have hnone : ∀ hash : Hash256, s'.store.blocks[hash]? ≠ none →
            s.store.blocks[hash]? ≠ none := by
          intro hash h
          rw [hempty hnil] at chosen
          exact (chosen.stored hash h).resolve_right (by simp)
        rcases hcase with hknown | ⟨hne, -⟩
        · exact hnone hash hknown (distinct.unknown block hmem hash hid)
        · obtain ⟨link, -, -, hlink⟩ := canonical'.exists_tip hne
          obtain ⟨bytes, hbytes⟩ := Option.ne_none_iff_exists'.mp
            (hnone link.hash (by rw [hlink.header]; simp))
          obtain ⟨other, -, hother, -⟩ := canonical.tree.held _ _ hbytes
          exact canonical.tree.ne_nil_of_holds hother hnil
      · exact .inr ⟨first, List.mem_append_left _ hfirst, hrest⟩
  · refine ⟨hmagic, hstored, ?_, Tip.not_outranks_of_outranks houtranks chosen.start,
      .inr ⟨block, hmem, blockId block, hid, htip⟩⟩
    intro other hother hash' hid'
    rcases mem_snoc.mp hother with hother | hlast
    · exact Tip.not_outranks_of_outranks houtranks (chosen.best other hother hash' hid')
    · rw [hlast] at hid' ⊢
      rw [← Except.ok.inj (hid.symm.trans hid'), htip]
      exact Tip.not_outranks_self _

end Chosen

/-- **After an accepted run the tip is the best block.** -/
theorem Chosen.deliver (canonical : Canonical s chain) {delivered : List Block} {s' : ChainState}
    (chosen : Chosen s chain delivered s') {chain' : List Link} (canonical' : Canonical s' chain')
    {deliveries : List Delivery} (distinct : Distinct s (delivered ++ deliveries.map Prod.fst))
    (accepted : s'.Accepts deliveries) :
    Chosen s chain (delivered ++ deliveries.map Prod.fst) (s'.deliver deliveries) := by
  induction deliveries generalizing s' delivered chain' with
  | nil => simpa [ChainState.deliver] using chosen
  | cons delivery deliveries ih =>
    obtain ⟨s'', result, chain'', hrun, hcanonical, hmoves⟩ :=
      canonical'.connectBlock delivery.1 delivery.2
    rw [ChainState.Accepts, hrun] at accepted
    rw [List.map_cons, List.append_cons] at distinct ⊢
    rw [ChainState.deliver_cons, hrun]
    have hfront : Distinct s (delivered ++ [delivery.1]) :=
      ⟨fun block h => distinct.unknown block (List.mem_append_left _ h),
        fun block h other h' => distinct.injective block (List.mem_append_left _ h) other
          (List.mem_append_left _ h')⟩
    exact ih (chosen.concat canonical canonical' hfront hmoves accepted.1) hcanonical distinct
      accepted.2

/-- Two best tips of the same blocks are equal. -/
theorem Chosen.tip_eq {first second : List Block} {s₁ s₂ : ChainState}
    (canonical : Canonical s chain) (distinct : Distinct s first)
    (same : ∀ block, block ∈ first ↔ block ∈ second) (chosen₁ : Chosen s chain first s₁)
    (chosen₂ : Chosen s chain second s₂) : s₁.tip = s₂.tip := by
  have hnew : ∀ block ∈ first, ∀ hash, Identifies s.networkMagic block hash → chain ≠ [] →
      hash ≠ s.tipHash := by
    rintro block hmem hash hid hne rfl
    obtain ⟨link, -, hhash, hlink⟩ := canonical.exists_tip hne
    have hstored := hlink.header
    rw [← hhash, distinct.unknown block hmem _ hid] at hstored
    cases hstored
  rcases chosen₁.origin with ⟨h₁, hempty₁⟩ | ⟨b₁, hb₁, hash₁, hid₁, h₁⟩ <;>
    rcases chosen₂.origin with ⟨h₂, hempty₂⟩ | ⟨b₂, hb₂, hash₂, hid₂, h₂⟩
  · rw [h₁, h₂]
  · exfalso
    have hb₂' := (same b₂).mpr hb₂
    have heq := (Tip.hash_eq_of_not_outranks chosen₂.start
      (h₂ ▸ h₁ ▸ chosen₁.best b₂ hb₂' hash₂ hid₂)).1
    refine hnew b₂ hb₂' hash₂ hid₂ (fun hnil => ?_) (by rw [h₂] at heq; exact heq.symm)
    rw [hempty₁ hnil] at hb₂'
    cases hb₂'
  · exfalso
    have heq := (Tip.hash_eq_of_not_outranks chosen₁.start
      (h₁ ▸ h₂ ▸ chosen₂.best b₁ ((same b₁).mp hb₁) hash₁ hid₁)).1
    refine hnew b₁ hb₁ hash₁ hid₁ (fun hnil => ?_) (by rw [h₁] at heq; exact heq.symm)
    have hb₁' := (same b₁).mp hb₁
    rw [hempty₂ hnil] at hb₁'
    cases hb₁'
  · have hb₂' := (same b₂).mpr hb₂
    have heq := (Tip.hash_eq_of_not_outranks (chosen₂.best b₁ ((same b₁).mp hb₁) hash₁ hid₁)
      (h₁ ▸ h₂ ▸ h₂ ▸ chosen₁.best b₂ hb₂' hash₂ hid₂)).1
    rw [h₂] at heq
    obtain rfl : hash₁ = hash₂ := heq
    rw [h₁, h₂, distinct.injective b₁ hb₁ b₂ hb₂' hash₁ hid₁ hid₂]

/-- **Fork choice does not depend on the order of arrival.** If two runs deliver the same blocks, all of
them new to the store, and every call of both succeeds, then both runs end with the same tip: the best
of the tip at the start and the delivered blocks, by total difficulty and then by the lower hash. A run
from an empty chain ends with one of the blocks. Pruning may delete what it likes. -/
theorem fork_choice_order_independent (canonical : Canonical s chain) {first second : List Delivery}
    (same : ∀ block, block ∈ first.map Prod.fst ↔ block ∈ second.map Prod.fst)
    (distinct : Distinct s (first.map Prod.fst)) (accepted₁ : s.Accepts first)
    (accepted₂ : s.Accepts second) :
    (s.deliver first).tip = (s.deliver second).tip ∧
      (∀ block ∈ first.map Prod.fst, ∀ hash, Identifies s.networkMagic block hash →
        ¬ (block.header.asTip hash).Outranks (s.deliver first).tip) ∧
      ¬ s.tip.Outranks (s.deliver first).tip ∧
      (((s.deliver first).tip = s.tip ∧ (chain = [] → first = [])) ∨
        ∃ block ∈ first.map Prod.fst, ∃ hash, Identifies s.networkMagic block hash ∧
          (s.deliver first).tip = block.header.asTip hash) := by
  have distinct₂ : Distinct s (second.map Prod.fst) :=
    ⟨fun block h => distinct.unknown block ((same block).mpr h), fun block h other h' =>
      distinct.injective block ((same block).mpr h) other ((same other).mpr h')⟩
  have chosen₁ := (Chosen.nil s chain).deliver canonical canonical distinct accepted₁
  have chosen₂ := (Chosen.nil s chain).deliver canonical canonical distinct₂ accepted₂
  rw [List.nil_append] at chosen₁ chosen₂
  refine ⟨chosen₁.tip_eq canonical distinct same chosen₂, chosen₁.best, chosen₁.start, ?_⟩
  simpa only [List.map_eq_nil_iff] using chosen₁.origin

end

namespace Transparent

attribute [local instance] primitives

/-- The same blocks in the other order. -/
def siblingsSwapped : List Block :=
  [regtestBlock 0 5 5 [], regtestBlock 1 3 5 [], regtestBlock 1 5 5 []]

theorem distinct_siblings :
    Distinct (ChainState.fresh Hash256.zero networkMagicRegtest) siblings := by
  refine ⟨fun _ _ hash _ => Table.getElem?_empty hash, ?_⟩
  have hidentifies : ∀ block ∈ siblings, ∀ hash, Identifies networkMagicRegtest block hash →
      hash = hashOf block.header.height block.header.pow.nonce := by
    intro block _ hash hid
    have hordinary : ¬ (networkMagicRegtest = networkMagicMainnet ∧ block.header.height = 0) :=
      fun h => absurd h.1 (by decide)
    rw [((canonicalHeaderIdentifier_eq_ok hordinary).mp hid).2]
    exact blockId_eq block
  intro block hblock other hother hash hid hid'
  have hsame := (hidentifies block hblock hash hid).symm.trans (hidentifies other hother hash hid')
  rw [hashOf_inj] at hsame
  revert hsame
  simp only [siblings, List.mem_cons, List.not_mem_nil, or_false] at hblock hother
  rcases hblock with rfl | rfl | rfl <;> rcases hother with rfl | rfl | rfl
  all_goals decide +kernel

theorem fork_choice_siblings : (regtestRun siblings).tip = (regtestRun siblingsSwapped).tip := by
  have haccepts : (ChainState.fresh Hash256.zero networkMagicRegtest).Accepts
      (siblings.map (·, genesisTimestampRegtest + 10)) := by decide +kernel
  have haccepts' : (ChainState.fresh Hash256.zero networkMagicRegtest).Accepts
      (siblingsSwapped.map (·, genesisTimestampRegtest + 10)) := by decide +kernel
  have hperm : siblings.Perm siblingsSwapped := (List.Perm.swap _ _ _).cons _
  have hfst : ∀ blocks : List Block,
      (blocks.map (·, genesisTimestampRegtest + 10)).map Prod.fst = blocks := by
    intro blocks
    rw [List.map_map]
    exact List.map_id _
  refine (fork_choice_order_independent (.fresh Hash256.zero networkMagicRegtest)
    (fun block => ?_) ?_ haccepts haccepts').1
  · rw [hfst, hfst]
    exact hperm.mem_iff
  · rw [hfst]
    exact distinct_siblings

end Transparent

section

variable [Primitives]

/-! ## Rejected blocks -/

/-- **What a rejected block may change in a table of stored blocks**: its own entry is added, or the
entry of a block off the canonical chain is deleted. -/
def SideChange (s : ChainState) (block : Block) (before after : Table Hash256 Bytes) : Prop :=
  ∀ hash : Hash256, after[hash]? = before[hash]? ∨
    (hash = blockId block ∧ before[hash]? = none) ∨
    (after[hash]? = none ∧ ∀ height : UInt64, s.store.heightIndex[height]? ≠ some hash)

/-- Storing a side block and pruning others is such a change. -/
theorem SideChange.of_pruned {s : ChainState} {chain : List Link} (canonical : Canonical s chain)
    {block : Block} {hashes : List Hash256}
    (spared : ∀ hash ∈ hashes, hash ∉ chain.map Link.hash) {table : Table Hash256 Bytes}
    (fresh : table[blockId block]? = none) (value : Bytes) :
    SideChange s block table (Table.eraseAll hashes (table.insert (blockId block) value)) := by
  intro hash
  rw [Table.getElem?_eraseAll, Table.getElem?_insert]
  by_cases hpruned : hash ∈ hashes
  · rw [if_pos hpruned]
    refine .inr (.inr ⟨rfl, fun height hindex => spared hash hpruned ?_⟩)
    rw [canonical.tree.index, Option.map_eq_some_iff] at hindex
    obtain ⟨link, hlink, rfl⟩ := hindex
    exact List.mem_map_of_mem (List.mem_of_getElem? hlink)
  · rw [if_neg hpruned]
    by_cases heq : blockId block = hash
    · exact .inr (.inl ⟨heq.symm, heq ▸ fresh⟩)
    · rw [if_neg heq]
      exact .inl rfl

/-- **A rejected block leaves the canonical chain as it was**, in every state a run can reach: the tip
in memory and in the store, the height index, the unspent set and the kernel index do not change, and
among the stored blocks only the block itself may be added and side blocks pruned. -/
theorem rejected_block_keeps_chain {genesisHash : Hash256} {networkMagic : UInt32}
    {start s s' : ChainState}
    (started : Started genesisHash networkMagic start) (deliveries : List Delivery)
    (reached : s = start.deliver deliveries) {block : Block} {now : Timestamp} {e : DomError}
    (rejected : s.connectBlock block now = (s', .error e)) :
    s'.tip = s.tip ∧ s'.store.tip = s.store.tip ∧ s'.store.heightIndex = s.store.heightIndex ∧
      s'.store.utxos = s.store.utxos ∧ s'.store.kernels = s.store.kernels ∧
      SideChange s block s.store.blocks s'.store.blocks ∧
      SideChange s block s.store.blockBodies s'.store.blockBodies := by
  obtain ⟨first, hfirst, -⟩ := Canonical.of_started started
  obtain ⟨chain, hchain⟩ := hfirst.deliver deliveries
  rw [← reached] at hchain
  obtain ⟨s'', result, chain', hrun, -, hmoves⟩ := hchain.connectBlock block now
  rw [rejected, Prod.mk.injEq] at hrun
  obtain ⟨rfl, rfl⟩ := hrun
  cases hmoves with
  | rejected =>
    exact ⟨rfl, rfl, rfl, rfl, rfl, fun _ => .inl rfl, fun _ => .inl rfl⟩
  | stored hashes _ admitted side spared =>
    have hbody : s.store.blockBodies[blockId block]? = none := by
      by_contra h
      exact hchain.tree.bodies _ h admitted.fresh
    exact ⟨rfl, rfl, rfl, rfl, rfl, .of_pruned hchain spared admitted.fresh _,
      .of_pruned hchain spared hbody _⟩

/-- **Rolling finality**: in every state a run can reach, the links of the canonical chain that have
`maxReorgDepth` descendants are still its first links after any further call. -/
theorem buried_links_stay {genesisHash : Hash256} {networkMagic : UInt32} {s : ChainState}
    (started : Started genesisHash networkMagic s) (deliveries : List Delivery) (block : Block)
    (now : Timestamp) :
    ∃ chain chain', Canonical (s.deliver deliveries) chain ∧
      Canonical ((s.deliver deliveries).connectBlock block now).1 chain' ∧
      chain.take (chain.length - maxReorgDepth) <+: chain' := by
  obtain ⟨first, hfirst, -⟩ := Canonical.of_started started
  obtain ⟨chain, hchain⟩ := hfirst.deliver deliveries
  obtain ⟨s', result, chain', hrun, hcanonical, hmoves⟩ := hchain.connectBlock block now
  rw [hrun]
  refine ⟨chain, chain', hchain, hcanonical, ?_⟩
  cases hmoves with
  | rejected | known | stored => exact List.take_prefix _ _
  | extended => exact (List.take_prefix _ _).trans (List.prefix_append _ _)
  | reorganized hashes hashes' admitted side outranks spared keeps canonical prepared isFork =>
    -- the disconnected branch is shorter than the depth, or the whole chain is
    have hlength := canonical.length_le_tipHeight
    have hshort := isFork.finality
    rw [isFork.split, List.length_append, List.length_map] at hlength ⊢
    rw [List.take_append_of_le_length (by omega)]
    exact (List.take_prefix _ _).trans (List.prefix_append _ _)

end

namespace Transparent

attribute [local instance] primitives

/-- A block that outranks its sibling but spends an output that does not exist. -/
def overspending : Block := regtestBlock 1 3 5 [transfer [(100, reward)] [(101, reward)] 1]

/-- The state before it arrives. -/
def beforeOverspending : ChainState := regtestRun [regtestBlock 0 5 5 [], regtestBlock 1 5 5 []]

/-- The call that delivers it. -/
def overspendingCall : ChainState × Result ConnectResult :=
  beforeOverspending.connectBlock overspending (genesisTimestampRegtest + 10)

theorem rejected_overspending :
    overspendingCall.2.isOk = false ∧
      overspendingCall.1.store.blocks.contains (blockId overspending) = true ∧
      overspendingCall.1.store.utxos = beforeOverspending.store.utxos := by
  have hrun : (overspendingCall.2.isOk ||
      !overspendingCall.1.store.blocks.contains (blockId overspending)) = false := by
    decide +kernel
  rw [Bool.or_eq_false_iff, Bool.not_eq_false'] at hrun
  refine ⟨hrun.1, hrun.2, ?_⟩
  cases hresult : overspendingCall.2 with
  | ok result =>
    have hfailed := hrun.1
    rw [hresult] at hfailed
    cases hfailed
  | error e =>
    have hcall : beforeOverspending.connectBlock overspending (genesisTimestampRegtest + 10) =
        (overspendingCall.1, .error e) := by
      rw [← hresult]
      exact (Prod.mk.eta (p := overspendingCall)).symm
    have hkept := rejected_block_keeps_chain (.fresh networkMagicRegtest)
      ([regtestBlock 0 5 5 [], regtestBlock 1 5 5 []].map (·, genesisTimestampRegtest + 10))
      (by rw [beforeOverspending, regtestRun]) hcall
    exact hkept.2.2.2.1

/-- A competing block that takes over. -/
theorem buried_links_stay_reorganized :
    let reorganized := (beforeOverspending.connectBlock (regtestBlock 1 3 5 [])
      (genesisTimestampRegtest + 10)).1
    (beforeOverspending.tipHash = hashOf 1 5 ∧ reorganized.tipHash = hashOf 1 3) ∧
      ∃ chain chain', Canonical beforeOverspending chain ∧ Canonical reorganized chain' ∧
        chain.take (chain.length - maxReorgDepth) <+: chain' := by
  refine ⟨by decide +kernel, ?_⟩
  rw [beforeOverspending, regtestRun]
  exact buried_links_stay (.fresh networkMagicRegtest) _ _ _

end Transparent

end DomProtocol
