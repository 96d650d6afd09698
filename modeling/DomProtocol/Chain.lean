import DomProtocol.ChainState
import DomProtocol.Codec
import DomProtocol.Lib.Ledger

/-! # The canonical chain behind a state

The abstract side of a chain state: the canonical chain as a list of **`Link`**s, one per height, and
what it means for a state to be a faithful record of such a chain (**`Canonical`**):

* `Tree`: the stored headers and bodies are those of sound blocks, the parent of a stored block is
  stored, and the height index lists exactly the chain;
* `Books`: the chain replays as a ledger, the unspent set has the keys of that replay, and the kernel
  index is the replay of the kernels.

The entries of the unspent set are not part of `Books`; only their keys are. -/

namespace DomProtocol

variable [Primitives]

open Ledger

/-! ## Links -/

/-- **A block of a chain as it is stored**: the mainnet genesis is an envelope without economic
effect, every other block is an ordinary one. -/
inductive Link where
  | envelope (hash : Hash256) (header : BlockHeader) (body : Bytes)
  | block (block : Block)

/-- The identifier of an ordinary block. -/
def blockId (block : Block) : Hash256 := computeBlockHash (headerBytes block.header)

namespace Link

variable {networkMagic : UInt32} {chainId : Hash256} {link : Link}

/-- The header of a link. -/
def header : Link → BlockHeader
  | envelope _ header _ => header
  | block b => b.header

/-- The key a link is stored under. -/
def hash : Link → Hash256
  | envelope hash _ _ => hash
  | block b => blockId b

/-- The stored body of a link. -/
def body : Link → Bytes
  | envelope _ _ body => body
  | block b => WireFormat.encode b

/-- What a link does to the unspent outputs. -/
def utxoEffect : Link → Effect (Octets 33) UtxoEntry
  | envelope .. => ⟨[], []⟩
  | block b => ⟨b.inputKeys, b.outputEntries⟩

/-- The kernel excesses of a link. -/
def excessKeys : Link → List (Octets 33)
  | envelope .. => []
  | block b => b.excessKeys

/-- What a link does to the kernel index. -/
def kernelEffect (link : Link) : Effect (Octets 33) Hash256 :=
  ⟨[], link.excessKeys.map (·, link.hash)⟩

/-- A link that has been validated. -/
def Sound (networkMagic : UInt32) (chainId : Hash256) : Link → Prop
  | envelope _ header body =>
    networkMagic = networkMagicMainnet ∧ header.height = 0 ∧ header.prevHash = Hash256.zero ∧
      (validateMainnetGenesisIdentity body).isOk = true
  | block b =>
    ¬ (networkMagic = networkMagicMainnet ∧ b.header.height = 0) ∧
      canonicalHeaderIdentifier networkMagic (headerBytes b.header) = .ok (blockId b) ∧
      BlockFacts b chainId networkMagic

@[simp] theorem header_block (b : Block) : (block b).header = b.header := rfl

@[simp] theorem hash_block (b : Block) : (block b).hash = blockId b := rfl

/-- Exactly genesis has no parent. -/
theorem Sound.height_eq_zero_iff (sound : link.Sound networkMagic chainId) :
    link.header.height = 0 ↔ link.header.prevHash = Hash256.zero := by
  cases link with
  | envelope hash header body =>
    obtain ⟨-, hheight, hprev, -⟩ := sound
    exact ⟨fun _ => hprev, fun _ => hheight⟩
  | block b => exact prevHash_of_validateHeaderSyntax sound.2.2.syntaxChecked

/-- A link above genesis is an ordinary block. -/
theorem Sound.exists_block
    (sound : link.Sound networkMagic chainId) (above : link.header.height ≠ 0) :
    ∃ b, link = block b := by
  cases link with
  | envelope hash header body => exact absurd sound.2.1 above
  | block b => exact ⟨b, rfl⟩

theorem map_fst_outputEntries (b : Block) : b.outputEntries.map Prod.fst = b.outputKeys := by
  rw [Block.outputEntries, Block.outputKeys, List.map_cons, List.map_flatMap]
  simp only [Transaction.outputEntries, Transaction.outputKeys, TransactionOutput.entry,
    List.map_map, Function.comp_def]

/-- The effect of a sound link is well formed. -/
theorem Sound.wellFormed
    (sound : link.Sound networkMagic chainId) : link.utxoEffect.WellFormed := by
  cases link with
  | envelope hash header body => exact ⟨List.nodup_nil, List.nodup_nil, by simp [utxoEffect]⟩
  | block b =>
    obtain ⟨-, -, facts⟩ := sound
    have hcreated : (utxoEffect (block b)).created = b.outputKeys := map_fst_outputEntries b
    refine ⟨facts.inputsNodup, ?_, ?_⟩
    · rw [hcreated]
      exact facts.outputsNodup
    · rw [hcreated]
      exact facts.cutThrough

theorem created_kernelEffect (link : Link) : link.kernelEffect.created = link.excessKeys := by
  simp [kernelEffect, Effect.created, List.map_map, Function.comp_def]

end Link

/-- The decoder reads a sound block back. -/
theorem BlockFacts.fromBytes {block : Block} {chainId : Hash256} {networkMagic : UInt32}
    (facts : BlockFacts block chainId networkMagic) :
    fromBytes Block (WireFormat.encode block) = .ok block :=
  fromBytes_toBytes facts.limits maxSize_block_lt

/-! ## Stored blocks -/

/-- The store holds the header and the body of a link under its hash. -/
structure Store.Holds (store : Store) (link : Link) : Prop where
  header : store.blocks[link.hash]? = some (headerBytes link.header)
  body : store.blockBodies[link.hash]? = some link.body

/-- The parent of a link is stored, one height below; genesis is on the chain instead. -/
def Attached (store : Store) (chain : List Link) (link : Link) : Prop :=
  (link.header.height = 0 ∧ link.hash ∈ chain.map Link.hash) ∨
    ∃ parent, parent.hash = link.header.prevHash ∧ store.Holds parent ∧
      link.header.height.toNat = parent.header.height.toNat + 1

/-- Each link of a chain has its position as height and points at the one before. -/
structure Linked (chain : List Link) : Prop where
  height : ∀ (i : Nat) link, chain[i]? = some link → link.header.height.toNat = i
  parent : ∀ (i : Nat) (link next : Link), chain[i]? = some link → chain[i + 1]? = some next →
    next.header.prevHash = link.hash

/-- The hash of the last link, or the zero hash. -/
def tipHashOf (chain : List Link) : Hash256 := (chain.getLast?.map Link.hash).getD Hash256.zero

@[simp] theorem tipHashOf_concat (chain : List Link) (link : Link) :
    tipHashOf (chain ++ [link]) = link.hash := by simp [tipHashOf]

theorem tipHashOf_of_getElem? {chain : List Link} {link : Link}
    (last : chain[chain.length - 1]? = some link) : tipHashOf chain = link.hash := by
  rw [tipHashOf, List.getLast?_eq_getElem?, last]
  rfl

theorem getLast?_map_hash {chain : List Link} (nonempty : chain ≠ []) :
    chain.getLast?.map Link.hash = some (tipHashOf chain) := by
  rw [tipHashOf, List.getLast?_eq_some_getLast nonempty]
  rfl

namespace Linked

theorem nil : Linked [] := ⟨by simp, by simp⟩

/-- A chain grows by a link one height above its tip. -/
theorem concat {chain : List Link} (linked : Linked chain) {link : Link}
    (height : link.header.height.toNat = chain.length)
    (parent : chain ≠ [] → link.header.prevHash = tipHashOf chain) :
    Linked (chain ++ [link]) := by
  constructor
  · intro i other hi
    rcases Nat.lt_trichotomy i chain.length with hlt | rfl | hgt
    · rw [List.getElem?_append_left hlt] at hi
      exact linked.height i other hi
    · rw [List.getElem?_concat_length, Option.some.injEq] at hi
      rw [← hi, height]
    · rw [List.getElem?_eq_none (by rw [List.length_append, List.length_singleton]; omega)] at hi
      cases hi
  · intro i other next hi hnext
    rcases Nat.lt_trichotomy (i + 1) chain.length with hlt | heq | hgt
    · rw [List.getElem?_append_left hlt] at hnext
      rw [List.getElem?_append_left (by omega)] at hi
      exact linked.parent i other next hi hnext
    · rw [heq, List.getElem?_concat_length, Option.some.injEq] at hnext
      rw [List.getElem?_append_left (by omega)] at hi
      have hne : chain ≠ [] := by
        rintro rfl
        cases hi
      rw [← hnext, parent hne]
      exact tipHashOf_of_getElem? (by rw [show chain.length - 1 = i by omega]; exact hi)
    · rw [List.getElem?_eq_none (by rw [List.length_append, List.length_singleton]; omega)]
        at hnext
      cases hnext

theorem of_append {front back : List Link} (linked : Linked (front ++ back)) : Linked front := by
  constructor
  · intro i link hi
    have hlt : i < front.length := (List.getElem?_eq_some_iff.mp hi).1
    exact linked.height i link (by rw [List.getElem?_append_left hlt]; exact hi)
  · intro i link next hi hnext
    have hlt : i + 1 < front.length := (List.getElem?_eq_some_iff.mp hnext).1
    exact linked.parent i link next (by rw [List.getElem?_append_left (by omega)]; exact hi)
      (by rw [List.getElem?_append_left hlt]; exact hnext)

end Linked

/-- **The stored blocks form a tree around the chain.** -/
structure Tree (store : Store) (networkMagic : UInt32) (chainId : Hash256) (chain : List Link) :
    Prop where
  index : ∀ height : UInt64, store.heightIndex[height]? = chain[height.toNat]?.map Link.hash
  onChain : ∀ link ∈ chain, store.Holds link
  sound : ∀ link ∈ chain, link.Sound networkMagic chainId
  held : ∀ (hash : Hash256) bytes, store.blocks[hash]? = some bytes →
    ∃ link : Link, link.hash = hash ∧ store.Holds link ∧ link.Sound networkMagic chainId ∧
      Attached store chain link
  bodies : ∀ hash : Hash256, store.blockBodies[hash]? ≠ none → store.blocks[hash]? ≠ none
  linked : Linked chain

omit [Primitives] in
theorem headerBytes_injective : Function.Injective headerBytes := by
  intro a b h
  have := fromBytes_headerBytes a
  rw [h, fromBytes_headerBytes] at this
  exact (Except.ok.inj this).symm

theorem Store.Holds.requireHeader {store : Store} {link : Link} (held : store.Holds link)
    (missing : DomError) : store.requireHeader link.hash missing = .ok link.header := by
  rw [Store.requireHeader, held.header, okOr_some, ok_bind, fromBytes_headerBytes]

/-- The header stored under a hash is unique. -/
theorem Store.Holds.header_eq {store : Store} {link other : Link} (held : store.Holds link)
    (held' : store.Holds other) (same : link.hash = other.hash) : link.header = other.header := by
  have h := held.header
  rw [same, held'.header, Option.some.injEq] at h
  exact (headerBytes_injective h).symm

namespace Tree

variable {store : Store} {networkMagic : UInt32} {chainId : Hash256} {chain : List Link}

variable (tree : Tree store networkMagic chainId chain)
include tree

/-- A required header is that of a sound, attached link. -/
theorem of_requireHeader {hash : Hash256} {missing : DomError} {header : BlockHeader}
    (found : store.requireHeader hash missing = .ok header) :
    ∃ link : Link, link.hash = hash ∧ link.header = header ∧ store.Holds link ∧
      link.Sound networkMagic chainId ∧ Attached store chain link := by
  simp only [Store.requireHeader, bind_eq_ok, okOr_eq_ok] at found
  obtain ⟨bytes, hbytes, hdecode⟩ := found
  obtain ⟨link, rfl, hheld, hsound, hattached⟩ := tree.held hash bytes hbytes
  rw [hheld.header, Option.some.injEq] at hbytes
  rw [← hbytes, fromBytes_headerBytes, Except.ok.injEq] at hdecode
  exact ⟨link, rfl, hdecode, hheld, hsound, hattached⟩

/-- What is stored under the hash of a held link is a sound, attached link with its header. -/
theorem of_holds {link : Link} (held : store.Holds link) :
    ∃ sound : Link, sound.hash = link.hash ∧ sound.header = link.header ∧
      sound.body = link.body ∧ sound.Sound networkMagic chainId ∧
      Attached store chain sound := by
  obtain ⟨other, hhash, hheld, hsound, hattached⟩ := tree.held _ _ held.header
  have hbody := hheld.body
  rw [hhash, held.body, Option.some.injEq] at hbody
  exact ⟨other, hhash, hheld.header_eq held hhash, hbody.symm, hsound, hattached⟩

/-- Links of the chain with the same hash are at the same height. -/
theorem chain_index_unique {i j : Nat}
    {link other : Link} (hi : chain[i]? = some link) (hj : chain[j]? = some other)
    (same : link.hash = other.hash) : i = j := by
  have hheader := (tree.onChain link (List.mem_of_getElem? hi)).header_eq
    (tree.onChain other (List.mem_of_getElem? hj)) same
  rw [← tree.linked.height i link hi, ← tree.linked.height j other hj, hheader]

/-- A held link under the hash of a chain link has the height of that position. -/
theorem height_of_hash {i : Nat}
    {link other : Link} (hi : chain[i]? = some link) (held : store.Holds other)
    (same : other.hash = link.hash) : other.header.height.toNat = i := by
  rw [held.header_eq (tree.onChain link (List.mem_of_getElem? hi)) same, tree.linked.height i link hi]

/-- The length of the chain fits the height index. -/
theorem length_le : chain.length ≤ 2 ^ 64 := by
  by_contra hlong
  have hlast : 2 ^ 64 < chain.length := by omega
  obtain ⟨link, hlink⟩ : ∃ link, chain[2 ^ 64]? = some link :=
    ⟨_, List.getElem?_eq_getElem hlast⟩
  have := tree.linked.height _ _ hlink
  have hlt := link.header.height.toNat_lt
  omega

/-- The canonical hashes are those of the chain. -/
theorem canonicalHashes_eq {tipHeight : BlockHeight} (tip : chain.length ≤ tipHeight.toNat + 1) :
    ∀ hash, hash ∈ canonicalHashes store tipHeight ↔ hash ∈ chain.map Link.hash := by
  intro hash
  simp only [canonicalHashes, List.mem_filterMap, List.mem_range, List.mem_map]
  constructor
  · rintro ⟨height, -, hindex⟩
    rw [tree.index] at hindex
    obtain ⟨link, hlink, rfl⟩ := Option.map_eq_some_iff.mp hindex
    exact ⟨link, List.mem_of_getElem? hlink, rfl⟩
  · rintro ⟨link, hmem, rfl⟩
    obtain ⟨i, hi⟩ := List.mem_iff_getElem?.mp hmem
    have hlt : i < chain.length := (List.getElem?_eq_some_iff.mp hi).1
    have hle := tree.length_le
    refine ⟨i, by omega, ?_⟩
    rw [tree.index, UInt64.toNat_ofNat_of_lt' (by norm_num; omega), hi, Option.map_some]

end Tree

/-! ## Ledgers of a chain -/

/-- Every stored unspent output is an encoded entry. -/
def Store.WellEncoded (store : Store) : Prop :=
  ∀ (commitment : Octets 33) bytes, store.utxos[commitment]? = some bytes →
    ∃ entry : UtxoEntry, bytes = entry.toBytes

/-- The unspent outputs of a store, decoded. -/
def Store.ledger (store : Store) (commitment : Octets 33) : Option UtxoEntry :=
  store.utxos[commitment]?.bind fun bytes => (UtxoEntry.fromBytes bytes).toOption

namespace Store.WellEncoded

variable {store : Store}

section

omit [Primitives]

theorem utxos_eq (encoded : store.WellEncoded) (commitment : Octets 33) :
    store.utxos[commitment]? = (store.ledger commitment).map UtxoEntry.toBytes := by
  unfold Store.ledger
  cases hbytes : store.utxos[commitment]? with
  | none => rfl
  | some bytes =>
    obtain ⟨entry, rfl⟩ := encoded commitment bytes hbytes
    rw [Option.bind_some, UtxoEntry.fromBytes_toBytes]
    rfl

theorem getUtxo_eq (encoded : store.WellEncoded) (commitment : Octets 33) :
    store.getUtxo commitment = .ok (store.ledger commitment) := by
  unfold Store.getUtxo Store.ledger
  cases hbytes : store.utxos[commitment]? with
  | none => rfl
  | some bytes =>
    obtain ⟨entry, rfl⟩ := encoded commitment bytes hbytes
    simp only [UtxoEntry.fromBytes_toBytes, ok_bind, Option.bind_some]
    rfl

theorem ledger_eq_none (encoded : store.WellEncoded) {commitment : Octets 33} :
    store.ledger commitment = none ↔ store.utxos[commitment]? = none := by
  rw [encoded.utxos_eq, Option.map_eq_none_iff]

/-- A store whose unspent outputs encode a ledger has that ledger. -/
theorem of_eq {ledger : Octets 33 → Option UtxoEntry}
    (utxos : ∀ k : Octets 33, store.utxos[k]? = (ledger k).map UtxoEntry.toBytes) :
    store.WellEncoded ∧ store.ledger = ledger := by
  constructor
  · intro commitment bytes hbytes
    rw [utxos] at hbytes
    obtain ⟨entry, -, rfl⟩ := Option.map_eq_some_iff.mp hbytes
    exact ⟨entry, rfl⟩
  · funext commitment
    rw [Store.ledger, utxos]
    cases ledger commitment with
    | none => rfl
    | some entry =>
      rw [Option.map_some, Option.bind_some, UtxoEntry.fromBytes_toBytes]
      rfl

end

end Store.WellEncoded

/-- The unspent outputs after a chain. -/
def unspentAfter (chain : List Link) : Octets 33 → Option UtxoEntry :=
  run (chain.map Link.utxoEffect) empty

/-- The kernel index after a chain. -/
def kernelsAfter (chain : List Link) : Octets 33 → Option Hash256 :=
  run (chain.map Link.kernelEffect) empty

/-- **The books of a chain**: it replays, and the store has the keys of the replay. -/
structure Books (store : Store) (chain : List Link) : Prop where
  encoded : store.WellEncoded
  outputsFit : FitsAll (chain.map Link.utxoEffect) empty
  domain : SameDomain store.ledger (unspentAfter chain)
  excessNodup : ∀ link ∈ chain, link.excessKeys.Nodup
  kernelsFit : FitsAll (chain.map Link.kernelEffect) empty
  kernels : ∀ excess : Octets 33, store.kernels[excess]? = kernelsAfter chain excess

/-- **The state is a record of the chain.** -/
structure Canonical (s : ChainState) (chain : List Link) : Prop where
  tree : Tree s.store s.networkMagic s.chainId chain
  books : Books s.store chain
  tipHash : s.tipHash = tipHashOf chain
  tipHeight : s.tipHeight.toNat = chain.length - 1
  tipDifficulty : s.tipDifficulty =
    (chain.getLast?.map (·.header.totalDifficulty)).getD 0
  storeTip : s.store.tip = chain.getLast?.map Link.hash

end DomProtocol
