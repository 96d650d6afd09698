import DomProtocol.Core
import DomProtocol.Lib.Table

/-! # Block store (`dom-store`)

The persistent tables of a node: headers and bodies by block hash, the canonical height index, the
tip pointer, the unspent outputs by commitment, the kernel index by excess, and the digest of the
unspent set. Headers, bodies and unspent outputs are raw octets, decoded when they are read; the
other values have a fixed length in the database and are stored decoded.

A write operation is one database transaction, so it is a function `Store → Result Store`: on an
error nothing has been written. Reads of the database itself do not fail here. -/

namespace DomProtocol

/-! ## Unspent outputs -/

/-- An unspent output as it is stored. -/
@[ext] structure UtxoEntry where
  blockHeight : UInt64
  isCoinbase : Bool
  proof : Bytes
  deriving DecidableEq

namespace UtxoEntry

/-- The octet of the coinbase flag. -/
def flagByte (entry : UtxoEntry) : UInt8 := if entry.isCoinbase then 1 else 0

/-- The stored octets of an entry. -/
def toBytes (entry : UtxoEntry) : Bytes :=
  leBytes 8 entry.blockHeight.toNat ++ entry.flagByte :: entry.proof

/-- Decode a coinbase flag. -/
def readFlag (flag : UInt8) : Result Bool :=
  if flag = 0 then .ok false
  else if flag = 1 then .ok true
  else .error (.malformed "utxo entry has invalid coinbase flag")

/-- Decode a stored entry. -/
def fromBytes (bytes : Bytes) : Result UtxoEntry := do
  rejectIf (bytes.length < 9) (.malformed "utxo entry too short")
  let isCoinbase ← readFlag (bytes.getD 8 0)
  pure ⟨UInt64.ofNat (leNat (bytes.take 8)), isCoinbase, bytes.drop 9⟩

/-- The flag octet reads back. -/
@[simp] theorem readFlag_flagByte (entry : UtxoEntry) :
    readFlag entry.flagByte = .ok entry.isCoinbase := by
  unfold flagByte
  cases entry.isCoinbase <;> rfl

/-- An entry reads back. -/
@[simp] theorem fromBytes_toBytes (entry : UtxoEntry) : fromBytes entry.toBytes = .ok entry := by
  have hlen : (leBytes 8 entry.blockHeight.toNat).length = 8 := length_leBytes ..
  have hlong : ¬ entry.toBytes.length < 9 := by
    rw [toBytes, List.length_append, List.length_cons, hlen]
    omega
  have hheight : leNat (entry.toBytes.take 8) = entry.blockHeight.toNat := by
    rw [toBytes, List.take_left' hlen,
      leNat_leBytes (entry.blockHeight.toNat_lt.trans_eq (by norm_num))]
  have hflag : entry.toBytes.getD 8 0 = entry.flagByte := by
    rw [toBytes, List.getD_eq_getElem?_getD, List.getElem?_append_right (by omega), hlen]
    rfl
  have hdrop : entry.toBytes.drop 9 = entry.proof := by
    rw [toBytes, List.drop_append, hlen]
    simp
  rw [fromBytes, rejectIf_of_not _ hlong, ok_bind, hflag, readFlag_flagByte, ok_bind, hheight,
    hdrop, UInt64.ofNat_toNat]
  rfl

/-- Records determine entries. -/
theorem toBytes_injective : Function.Injective toBytes := by
  intro a b h
  have := congrArg fromBytes h
  simpa using this

/-- Whether an entry may be spent at a height under a maturity rule. -/
def isMatureFor (entry : UtxoEntry) (currentHeight maturity : UInt64) : Bool :=
  !entry.isCoinbase || decide (saturatingSub currentHeight entry.blockHeight ≥ maturity)

end UtxoEntry

/-! ## Tables -/

/-- **The store of a node.** -/
structure Store where
  blocks : Table Hash256 Bytes
  blockBodies : Table Hash256 Bytes
  heightIndex : Table UInt64 Hash256
  tip : Option Hash256
  utxos : Table (Octets 33) Bytes
  kernels : Table (Octets 33) Hash256
  utxoSetDigest : Option Hash256

namespace Store

variable {store store' : Store} {blockHash : Hash256} {headerBytes blockBodyBytes : Bytes}

/-- A new store. -/
def empty : Store := ⟨∅, ∅, ∅, none, ∅, ∅, none⟩

/-- The unspent output of a commitment. -/
def getUtxo (store : Store) (commitment : Octets 33) : Result (Option UtxoEntry) :=
  match store.utxos[commitment]? with
  | none => .ok none
  | some bytes => do
    let entry ← UtxoEntry.fromBytes bytes
    pure (some entry)

/-- Store the header and the body of a block whose hash must be new. -/
def putBlock (store : Store) (blockHash : Hash256) (headerBytes blockBodyBytes : Bytes) :
    Result Store := do
  let blocks ← Table.putNew (fun _ => .internal
    (s!"block header already exists — connect_block dedup bypassed? " ++
      s!"hash={blockHash.toHex}")) store.blocks (blockHash, headerBytes)
  let bodies ← Table.putNew (fun _ => .internal
    (s!"block body already exists — connect_block dedup bypassed? " ++
      s!"hash={blockHash.toHex}")) store.blockBodies (blockHash, blockBodyBytes)
  pure { store with blocks := blocks, blockBodies := bodies }

/-- Commit a block to the canonical chain. -/
def commitBlock (store : Store) (blockHash : Hash256) (blockHeight : UInt64)
    (headerBytes blockBodyBytes : Bytes) (newUtxos : List (Octets 33 × Bytes))
    (spentUtxos : List (Octets 33)) (kernelExcesses : List (Octets 33 × Hash256)) :
    Result Store := do
  let stored ← store.putBlock blockHash headerBytes blockBodyBytes
  let created ← Table.putAllNew (fun entry => .internal
    (s!"UTXO commitment already exists — consensus bug? " ++
      s!"commitment={hexNat 66 entry.1.toNat}")) newUtxos store.utxos
  let utxos ← Table.deleteAll (fun commitment => .internal
    (s!"spent UTXO not found in canonical store — double-spend or missing input: " ++
      s!"commitment={hexNat 66 commitment.toNat}")) spentUtxos created
  let kernels ← Table.putAllNew (fun entry => .internal
    (s!"KERNEL REPLAY DETECTED — excess already indexed (DOM-SEC critical): " ++
      s!"excess={hexNat 66 entry.1.toNat}, block={entry.2.toHex}")) kernelExcesses store.kernels
  pure { stored with
    heightIndex := store.heightIndex.insert blockHeight blockHash
    tip := some blockHash
    utxos := utxos
    kernels := kernels
    utxoSetDigest := none }

/-- Store a valid block that is not on the canonical chain. -/
def storeKnownBlock (store : Store) (blockHash : Hash256) (headerBytes blockBodyBytes : Bytes) :
    Result Store :=
  store.putBlock blockHash headerBytes blockBodyBytes

/-- Rewrite the canonical pointers and the touched state for a reorganization. -/
def applyReorg (store : Store) (newTipHash : Hash256)
    (heightUpdates : List (UInt64 × Option Hash256))
    (utxoUpdates : List (Octets 33 × Option Bytes))
    (kernelUpdates : List (Octets 33 × Option Hash256)) : Store :=
  { store with
    heightIndex := Table.applyUpdates heightUpdates store.heightIndex
    utxos := Table.applyUpdates utxoUpdates store.utxos
    kernels := Table.applyUpdates kernelUpdates store.kernels
    tip := some newTipHash
    utxoSetDigest := none }

/-- Delete retained blocks by hash. -/
def pruneKnownBlocks (store : Store) (pruneHashes : List Hash256) : Store :=
  { store with
    blocks := Table.eraseAll pruneHashes store.blocks
    blockBodies := Table.eraseAll pruneHashes store.blockBodies }

/-- Replace the unspent set. -/
def replaceUtxoSet (store : Store) (utxos : Table (Octets 33) Bytes) (digest : Hash256) : Store :=
  { store with utxos := utxos, utxoSetDigest := some digest }

/-- Record the digest of the unspent set. -/
def persistUtxoSetDigest (store : Store) (digest : Hash256) : Store :=
  { store with utxoSetDigest := some digest }

/-! ## What the operations do -/

/-- A block is put once. -/
theorem putBlock_eq_ok :
    store.putBlock blockHash headerBytes blockBodyBytes = .ok store' ↔
      (store.blocks[blockHash]? = none ∧ store.blockBodies[blockHash]? = none) ∧
      store' = { store with
        blocks := store.blocks.insert blockHash headerBytes
        blockBodies := store.blockBodies.insert blockHash blockBodyBytes } := by
  simp only [putBlock, Table.putNew, bind_eq_ok, rejectIf_eq_ok, pure_eq_ok,
    Table.contains_eq_isSome, Option.isSome_iff_ne_none, ne_eq, not_not]
  constructor
  · rintro ⟨_, ⟨_, hheader, rfl⟩, _, ⟨_, hbody, rfl⟩, rfl⟩
    exact ⟨⟨hheader, hbody⟩, rfl⟩
  · rintro ⟨⟨hheader, hbody⟩, rfl⟩
    exact ⟨_, ⟨(), hheader, rfl⟩, _, ⟨(), hbody, rfl⟩, rfl⟩

/-- When a block can be committed, as far as the store is concerned. -/
structure CanCommit (store : Store) (blockHash : Hash256)
    (newUtxos : List (Octets 33 × Bytes)) (spentUtxos : List (Octets 33))
    (kernelExcesses : List (Octets 33 × Hash256)) : Prop where
  newHeader : store.blocks[blockHash]? = none
  newBody : store.blockBodies[blockHash]? = none
  createdNodup : (newUtxos.map Prod.fst).Nodup
  createdNew : ∀ k ∈ newUtxos.map Prod.fst, store.utxos[k]? = none
  spentNodup : spentUtxos.Nodup
  spentPresent : ∀ k ∈ spentUtxos, (Table.insertAll newUtxos store.utxos)[k]? ≠ none
  kernelsNodup : (kernelExcesses.map Prod.fst).Nodup
  kernelsNew : ∀ k ∈ kernelExcesses.map Prod.fst, store.kernels[k]? = none

/-- The store after a block is committed. -/
def committed (store : Store) (blockHash : Hash256) (blockHeight : UInt64)
    (headerBytes blockBodyBytes : Bytes) (newUtxos : List (Octets 33 × Bytes))
    (spentUtxos : List (Octets 33)) (kernelExcesses : List (Octets 33 × Hash256)) : Store where
  blocks := store.blocks.insert blockHash headerBytes
  blockBodies := store.blockBodies.insert blockHash blockBodyBytes
  heightIndex := store.heightIndex.insert blockHeight blockHash
  tip := some blockHash
  utxos := Table.eraseAll spentUtxos (Table.insertAll newUtxos store.utxos)
  kernels := Table.insertAll kernelExcesses store.kernels
  utxoSetDigest := none

/-- **A commit succeeds exactly when nothing is overwritten and everything spent is there.** -/
theorem commitBlock_eq_ok {blockHeight : UInt64} {newUtxos : List (Octets 33 × Bytes)}
    {spentUtxos : List (Octets 33)} {kernelExcesses : List (Octets 33 × Hash256)} :
    store.commitBlock blockHash blockHeight headerBytes blockBodyBytes newUtxos spentUtxos
        kernelExcesses = .ok store' ↔
      store.CanCommit blockHash newUtxos spentUtxos kernelExcesses ∧
        store' = store.committed blockHash blockHeight headerBytes blockBodyBytes newUtxos
          spentUtxos kernelExcesses := by
  simp only [commitBlock, bind_eq_ok, putBlock_eq_ok, Table.putAllNew_eq_ok,
    Table.deleteAll_eq_ok, pure_eq_ok]
  constructor
  · rintro ⟨_, ⟨⟨hheader, hbody⟩, rfl⟩, _, ⟨⟨hnodup, hnew⟩, rfl⟩, _, ⟨⟨hspent, hpresent⟩, rfl⟩, _,
      ⟨⟨hkernels, hknew⟩, rfl⟩, rfl⟩
    exact ⟨⟨hheader, hbody, hnodup, hnew, hspent, hpresent, hkernels, hknew⟩, rfl⟩
  · rintro ⟨can, rfl⟩
    exact ⟨_, ⟨⟨can.newHeader, can.newBody⟩, rfl⟩, _, ⟨⟨can.createdNodup, can.createdNew⟩, rfl⟩, _,
      ⟨⟨can.spentNodup, can.spentPresent⟩, rfl⟩, _, ⟨⟨can.kernelsNodup, can.kernelsNew⟩, rfl⟩, rfl⟩

end Store

end DomProtocol
