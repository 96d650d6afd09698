import DomProtocol.Types
import DomProtocol.Pmmr
import DomProtocol.Transparent

/-! # Header roots and the body commitment (`dom-consensus`)

The header of a block carries three accumulator roots over its body. From height 1 on the third one
also binds a hash of every octet of the body (**`computeBlockBodyCommitment`**), so that a header
determines its body: **`block_roots_bind_body`**, under the assumption that the tagged hash has no
collision among the strings hashed for the blocks concerned. -/

namespace DomProtocol

section

variable [Primitives]

/-! ## The roots -/

/-- The three roots of a block header. -/
@[ext] structure BlockRoots where
  output : Hash256
  kernel : Hash256
  rangeproof : Hash256
  deriving DecidableEq

/-- The three accumulators over a block body. -/
structure BodyMmrs where
  output : Pmmr
  kernel : Pmmr
  rangeproof : Pmmr

namespace BodyMmrs

/-- Three empty accumulators. -/
def new : BodyMmrs := ⟨Pmmr.new, Pmmr.new, Pmmr.new⟩

/-- Append the commitment and the proof of an output. -/
def pushOutput (mmrs : BodyMmrs) (output : TransactionOutput) : Result BodyMmrs := do
  let outputMmr ← mmrs.output.push output.commitment.bytes.toList
  let rangeproofMmr ← mmrs.rangeproof.push output.proof
  pure { mmrs with output := outputMmr, rangeproof := rangeproofMmr }

/-- Append a kernel excess. -/
def pushKernel (mmrs : BodyMmrs) (excess : Commitment) : Result BodyMmrs := do
  let kernelMmr ← mmrs.kernel.push excess.bytes.toList
  pure { mmrs with kernel := kernelMmr }

/-- Append the outputs and the kernels of a transaction. -/
def pushTransaction (mmrs : BodyMmrs) (tx : Transaction) : Result BodyMmrs := do
  let mmrs ← tx.outputs.foldlM pushOutput mmrs
  tx.kernels.foldlM (fun mmrs kernel => mmrs.pushKernel kernel.excess) mmrs

end BodyMmrs

variable {block : Block} {coinbase : CoinbaseTransaction} {transactions : List Transaction}
  {body : Bytes}

/-- The three accumulator roots of a block body, coinbase first. -/
def computeUnboundBlockPmmrRoots (coinbase : CoinbaseTransaction)
    (transactions : List Transaction) : Result BlockRoots := do
  let mmrs ← BodyMmrs.new.pushOutput coinbase.output
  let mmrs ← mmrs.pushKernel coinbase.kernel.excess
  let mmrs ← transactions.foldlM BodyMmrs.pushTransaction mmrs
  let output ← mmrs.output.root
  let kernel ← mmrs.kernel.root
  let rangeproof ← mmrs.rangeproof.root
  pure ⟨output, kernel, rangeproof⟩

/-- The canonical octets of a block body, without its header. -/
def canonicalBlockBodyBytes (coinbase : CoinbaseTransaction) (transactions : List Transaction) :
    Result Bytes := do
  let writer ← serialize coinbase Writer.new
  writer.writeList transactions

/-- The domain-separated commitment to every octet of a block body. -/
def computeBlockBodyCommitment (coinbase : CoinbaseTransaction) (transactions : List Transaction) :
    Result Hash256 := do
  let body ← canonicalBlockBodyBytes coinbase transactions
  pure (blake2b256Tagged tagBlockBodyCommitment body)

/-- Bind the body commitment into the range-proof root, except at genesis. -/
def bindBody (height : BlockHeight) (coinbase : CoinbaseTransaction)
    (transactions : List Transaction) (roots : BlockRoots) : Result BlockRoots :=
  if height = 0 then pure roots
  else do
    let bodyCommitment ← computeBlockBodyCommitment coinbase transactions
    pure { roots with rangeproof :=
      blake2b256Tagged tagBoundRangeproofRoot (roots.rangeproof.toList ++ bodyCommitment.toList) }

/-- The three header roots of a block body at a height. -/
def computeBlockPmmrRoots (height : BlockHeight) (coinbase : CoinbaseTransaction)
    (transactions : List Transaction) : Result BlockRoots := do
  let roots ← computeUnboundBlockPmmrRoots coinbase transactions
  bindBody height coinbase transactions roots

/-- Check the three roots of a header against those of the body. -/
def validatePmmrRoots (block : Block) : Result Unit := do
  let computed ← computeBlockPmmrRoots block.header.height block.coinbase block.transactions
  rejectIf (computed.output ≠ block.header.outputRoot) (.invalid
    (s!"output_root mismatch: header={block.header.outputRoot.toHex} " ++
      s!"computed={computed.output.toHex}"))
  rejectIf (computed.kernel ≠ block.header.kernelRoot) (.invalid
    (s!"kernel_root mismatch: header={block.header.kernelRoot.toHex} " ++
      s!"computed={computed.kernel.toHex}"))
  rejectIf (computed.rangeproof ≠ block.header.rangeproofRoot) (.invalid
    (s!"rangeproof_root mismatch: header={block.header.rangeproofRoot.toHex} " ++
      s!"computed={computed.rangeproof.toHex}"))

/-- The chain identifier of a network and its genesis hash. -/
def deriveChainId (networkMagic : UInt32) (genesisHash : Hash256) : Hash256 :=
  blake2b256Tagged tagChainId (beBytes 4 networkMagic.toNat ++ genesisHash.toList)

/-- The roots of a body without transactions are the leaf hashes of its coinbase. -/
theorem computeUnboundBlockPmmrRoots_nil (coinbase : CoinbaseTransaction) :
    computeUnboundBlockPmmrRoots coinbase [] =
      .ok ⟨leafHash 1 coinbase.output.commitment.bytes.toList,
        leafHash 1 coinbase.kernel.excess.bytes.toList, leafHash 1 coinbase.output.proof⟩ := by
  simp [computeUnboundBlockPmmrRoots, BodyMmrs.pushOutput, BodyMmrs.pushKernel, BodyMmrs.new,
    Pmmr.push_new, Pmmr.root_singleton]

/-! ## What the roots determine -/

/-- The roots a header states. -/
def BlockHeader.roots (header : BlockHeader) : BlockRoots :=
  ⟨header.outputRoot, header.kernelRoot, header.rangeproofRoot⟩

/-- **A block passes the root check exactly when its header states the roots of its body.** -/
theorem validatePmmrRoots_eq_ok {u : Unit} :
    validatePmmrRoots block = .ok u ↔
      computeBlockPmmrRoots block.header.height block.coinbase block.transactions =
        .ok block.header.roots := by
  simp only [validatePmmrRoots, bind_eq_ok, rejectIf_eq_ok, not_not, BlockHeader.roots]
  constructor
  · rintro ⟨computed, hcomputed, -, houtput, -, hkernel, hrangeproof⟩
    rw [hcomputed, ← houtput, ← hkernel, ← hrangeproof]
  · intro h
    exact ⟨_, h, (), rfl, (), rfl, rfl⟩

/-- **The body is written as the encodings of its two parts.** -/
theorem canonicalBlockBodyBytes_eq_ok :
    canonicalBlockBodyBytes coinbase transactions = .ok body ↔
      (WireFormat.Writable coinbase ∧ ListWritable transactions) ∧
        body = WireFormat.encode coinbase ++ listBytes transactions :=
  (WireFormat.serialize_spec coinbase).bind (Writer.writeList_spec transactions) [] body

/-- **Body serialization is injective.** -/
theorem canonicalBlockBodyBytes_injective {coinbase' : CoinbaseTransaction}
    {transactions' : List Transaction}
    (hbody : canonicalBlockBodyBytes coinbase transactions = .ok body)
    (hbody' : canonicalBlockBodyBytes coinbase' transactions' = .ok body) :
    coinbase = coinbase' ∧ transactions = transactions' := by
  obtain ⟨⟨hcoinbase, htxs⟩, heq⟩ := canonicalBlockBodyBytes_eq_ok.mp hbody
  obtain ⟨⟨hcoinbase', htxs'⟩, heq'⟩ := canonicalBlockBodyBytes_eq_ok.mp hbody'
  obtain ⟨rfl, hlists⟩ :=
    WireFormat.prefixCode hcoinbase hcoinbase' (heq.symm.trans heq')
  exact ⟨rfl, listBytes_prefixCode.injective htxs htxs' hlists⟩

/-- The body strings hashed for a set of blocks. -/
def bodyStrings (blocks : Set Block) : Set Bytes :=
  {body | ∃ block ∈ blocks, canonicalBlockBodyBytes block.coinbase block.transactions = .ok body}

/-- The strings hashed to bind the bodies of a set of blocks into their roots. -/
def bindingStrings (blocks : Set Block) : Set Bytes :=
  {data | ∃ block ∈ blocks, ∃ roots bodyCommitment,
    computeUnboundBlockPmmrRoots block.coinbase block.transactions = .ok roots ∧
    computeBlockBodyCommitment block.coinbase block.transactions = .ok bodyCommitment ∧
    data = roots.rangeproof.toList ++ bodyCommitment.toList}

/-- The third root of a block above genesis is the hash of its binding string, which ends in the
hash of its body string. -/
theorem rangeproof_of_computeBlockPmmrRoots {blocks : Set Block}
    (mem : block ∈ blocks) (nonGenesis : 1 ≤ block.header.height.toNat) {roots : BlockRoots}
    (computed : computeBlockPmmrRoots block.header.height block.coinbase block.transactions =
      .ok roots) :
    ∃ body ∈ bodyStrings blocks, ∃ start : Hash256,
      canonicalBlockBodyBytes block.coinbase block.transactions = .ok body ∧
      start.toList ++ (blake2b256Tagged tagBlockBodyCommitment body).toList ∈
        bindingStrings blocks ∧
      roots.rangeproof = blake2b256Tagged tagBoundRangeproofRoot
        (start.toList ++ (blake2b256Tagged tagBlockBodyCommitment body).toList) := by
  have hheight : block.header.height ≠ 0 := by
    intro h
    simp [h] at nonGenesis
  simp only [computeBlockPmmrRoots, bindBody, if_neg hheight, bind_eq_ok, pure_eq_ok] at computed
  obtain ⟨unbound, hunbound, commitment, hcommitment, rfl⟩ := computed
  obtain ⟨body, hbody, heq⟩ := bind_eq_ok.mp hcommitment
  obtain rfl := pure_eq_ok.mp heq
  exact ⟨body, ⟨block, mem, hbody⟩, unbound.rangeproof, hbody,
    ⟨block, mem, unbound, _, hunbound, hcommitment, rfl⟩, rfl⟩

/-- **The roots bind the body.** Among blocks whose body strings and binding strings do not collide
under the tagged hash, two blocks at one height above genesis with equal roots have equal bodies;
so no two blocks that pass the root check share a header. -/
theorem block_roots_bind_body (blocks : Set Block) (bodyCollisionFree :
      Set.InjOn (blake2b256Tagged tagBlockBodyCommitment) (bodyStrings blocks))
    (bindingCollisionFree :
      Set.InjOn (blake2b256Tagged tagBoundRangeproofRoot) (bindingStrings blocks)) :
    ∀ block ∈ blocks, ∀ block' ∈ blocks, block.header.height = block'.header.height →
      1 ≤ block.header.height.toNat →
      (∀ roots,
        computeBlockPmmrRoots block.header.height block.coinbase block.transactions =
          .ok roots →
        computeBlockPmmrRoots block'.header.height block'.coinbase block'.transactions =
          .ok roots →
        block.coinbase = block'.coinbase ∧ block.transactions = block'.transactions ∧
          canonicalBlockBodyBytes block.coinbase block.transactions =
            canonicalBlockBodyBytes block'.coinbase block'.transactions) ∧
      (block.header = block'.header → validatePmmrRoots block = .ok () →
        validatePmmrRoots block' = .ok () → block = block') := by
  intro block hblock block' hblock' hheight nonGenesis
  have hbind : ∀ roots,
      computeBlockPmmrRoots block.header.height block.coinbase block.transactions = .ok roots →
      computeBlockPmmrRoots block'.header.height block'.coinbase block'.transactions =
        .ok roots →
      block.coinbase = block'.coinbase ∧ block.transactions = block'.transactions := by
    intro roots hroots hroots'
    obtain ⟨body, hmem, start, hbody, hbinding, hroot⟩ :=
      rangeproof_of_computeBlockPmmrRoots hblock nonGenesis hroots
    obtain ⟨body', hmem', start', hbody', hbinding', hroot'⟩ :=
      rangeproof_of_computeBlockPmmrRoots hblock' (hheight ▸ nonGenesis) hroots'
    have hdata := bindingCollisionFree hbinding hbinding' (hroot.symm.trans hroot')
    have hhash := (List.append_inj hdata (by simp [Octets.length_toList])).2
    obtain rfl := bodyCollisionFree hmem hmem' (Octets.toList_injective hhash)
    exact canonicalBlockBodyBytes_injective hbody hbody'
  refine ⟨fun roots hroots hroots' => ?_, fun hheader hvalid hvalid' => ?_⟩
  · obtain ⟨hcoinbase, htxs⟩ := hbind roots hroots hroots'
    exact ⟨hcoinbase, htxs, by rw [hcoinbase, htxs]⟩
  · have hroots := validatePmmrRoots_eq_ok.mp hvalid
    have hroots' := validatePmmrRoots_eq_ok.mp hvalid'
    rw [← hheader] at hroots'
    obtain ⟨hcoinbase, htxs⟩ := hbind _ hroots (hheader ▸ hroots')
    exact Block.ext hheader hcoinbase htxs

end

/-! ## Two bodies that differ in their offset -/

namespace Transparent

/-- The transparent primitives with the hash that keeps the last 32 octets. -/
@[reducible] def tailPrimitives : Primitives :=
  { primitives with blake2b256 := fun data => BitVec.ofNat _ (beNat data) }

attribute [local instance] tailPrimitives

/-- A commitment of this instance. -/
def tailCommitment (blinding value : Nat) (tagged : tagOf (pointBytes blinding value) = 2) :
    Commitment := ⟨pointBytes blinding value, decide_eq_true tagged, rfl⟩

/-- A block without transactions at height 1, with the given coinbase offset. -/
def blockWithOffset (offset : Nat) : Block where
  header := ⟨2, 1, 0, 0, 0, 0, 0, 0, 0, 0, ⟨0, 0⟩⟩
  coinbase :=
    { output := ⟨tailCommitment 1 5 (by decide +kernel), []⟩
      kernel := ⟨kernelFeatCoinbase, 5, tailCommitment 1 0 (by decide +kernel), 0⟩
      offset := BitVec.ofNat _ offset }
  transactions := []

/-- The body string of such a block. -/
def bodyString (offset : Nat) : Bytes :=
  WireFormat.encode (blockWithOffset offset).coinbase ++ listBytes ([] : List Transaction)

/-- The binding string of such a block. -/
def bindingString (offset : Nat) : Bytes :=
  (leafHash 1 []).toList ++ (blake2b256Tagged tagBlockBodyCommitment (bodyString offset)).toList

theorem bodyStrings_subset :
    bodyStrings {blockWithOffset 0, blockWithOffset 1} ⊆ {bodyString 0, bodyString 1} := by
  rintro body ⟨block, rfl | rfl, hbody⟩
  · exact .inl (canonicalBlockBodyBytes_eq_ok.mp hbody).2
  · exact .inr (canonicalBlockBodyBytes_eq_ok.mp hbody).2

theorem bindingStrings_subset :
    bindingStrings {blockWithOffset 0, blockWithOffset 1} ⊆ {bindingString 0, bindingString 1} := by
  have hstring : ∀ offset roots commitment,
      computeUnboundBlockPmmrRoots (blockWithOffset offset).coinbase [] = .ok roots →
      computeBlockBodyCommitment (blockWithOffset offset).coinbase [] = .ok commitment →
      roots.rangeproof.toList ++ commitment.toList = bindingString offset := by
    intro offset roots commitment hroots hcommitment
    rw [computeUnboundBlockPmmrRoots_nil] at hroots
    obtain ⟨body, hbody, heq⟩ := bind_eq_ok.mp hcommitment
    rw [← Except.ok.inj hroots, ← pure_eq_ok.mp heq, (canonicalBlockBodyBytes_eq_ok.mp hbody).2]
    rfl
  rintro data ⟨block, rfl | rfl, roots, commitment, hroots, hcommitment, rfl⟩
  · exact .inl (hstring 0 _ _ hroots hcommitment)
  · exact .inr (hstring 1 _ _ hroots hcommitment)

theorem block_roots_bind_body_offsets :
    ∃ roots, computeBlockPmmrRoots 1 (blockWithOffset 0).coinbase [] = .ok roots ∧
      computeBlockPmmrRoots 1 (blockWithOffset 1).coinbase [] ≠ .ok roots := by
  have hbody : Set.InjOn (blake2b256Tagged tagBlockBodyCommitment) {bodyString 0, bodyString 1} :=
    Set.injOn_pair.mpr fun h => absurd h (by decide +kernel)
  have hbinding :
      Set.InjOn (blake2b256Tagged tagBoundRangeproofRoot) {bindingString 0, bindingString 1} :=
    Set.injOn_pair.mpr fun h => absurd h (by decide +kernel)
  refine ⟨_, rfl, fun hroots => ?_⟩
  have hequal := (block_roots_bind_body {blockWithOffset 0, blockWithOffset 1}
    (hbody.mono bodyStrings_subset) (hbinding.mono bindingStrings_subset)
    (blockWithOffset 0) (.inl rfl) (blockWithOffset 1) (.inr rfl) rfl (by decide)).1 _ rfl hroots
  exact absurd hequal.1 (by decide +kernel)

end Transparent

end DomProtocol
