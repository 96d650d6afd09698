import DomProtocol.Genesis
import DomProtocol.Store

/-! # Walking and rewriting branches (`dom-chain::reorg`, helpers of `dom-chain::chain_state`)

Functions of the store that a reorganization is made of: the common ancestor of two tips, the blocks
of a branch, the overlays that undo one branch and apply another, and their translation into store
updates; then the retention of side chains.

Loops of the source that follow parent links until they meet a given hash carry a fuel,
**`walkFuel`**. Parent links of stored headers lower the height, so a walk takes at most one step per
height; the error of an exhausted fuel stands for a walk that does not end. -/

namespace DomProtocol

variable [Primitives]

/-- Rolling-finality depth. -/
def maxReorgDepth : Nat := 360

def maxRetainedSideBranchTips : Nat := 8
def maxRetainedSideBranchReorgDepth : Nat := maxReorgDepthPolicy
def maxRetainedSideBranchLength : Nat := maxReorgDepthPolicy

/-- The text that marks chainstate corruption. -/
def chainCorruptSentinel : String := "CHAIN_CORRUPT"

/-- One step for each height a block can have. -/
def walkFuel : Nat := 2 ^ 64

/-- The error of a walk that does not end. -/
def walkError : DomError := .internal "parent links do not reach the ancestor"

/-- The stored header of a hash, which must be there. -/
def Store.requireHeader (store : Store) (hash : Hash256) (missing : DomError) :
    Result BlockHeader := do
  let bytes ← okOr missing store.blocks[hash]?
  fromBytes BlockHeader bytes

/-! ## Common ancestor -/

/-- The hashes on the way back from a cursor, for at most `fuel` steps. -/
def ancestorWalk (store : Store) : (fuel : Nat) → (cursor : Hash256) → (seen : List Hash256) →
    Result (List Hash256)
  | 0, _, seen => .ok seen
  | fuel + 1, cursor, seen =>
    if cursor = Hash256.zero then .ok (cursor :: seen)
    else do
      let header ← store.requireHeader cursor
        (.internal s!"missing header during ancestor walk: {cursor.toHex}")
      if header.prevHash = Hash256.zero then .ok (Hash256.zero :: cursor :: seen)
      else ancestorWalk store fuel header.prevHash (cursor :: seen)

/-- The first hash on the way back from a cursor that has been seen. -/
def firstSeen (store : Store) (seen : List Hash256) : (fuel : Nat) → (cursor : Hash256) →
    Result (Option Hash256)
  | 0, _ => .ok none
  | fuel + 1, cursor =>
    if cursor ∈ seen then .ok (some cursor)
    else if cursor = Hash256.zero then .ok none
    else
      match store.blocks[cursor]? with
      | none => .ok none
      | some bytes => do
        let header ← fromBytes BlockHeader bytes
        firstSeen store seen fuel header.prevHash

/-- The common ancestor of two tips, at most `maxReorgDepthPolicy` blocks below each. -/
def findCommonAncestor (store : Store) (ourTip theirTip : Hash256) : Result (Option Hash256) :=
  if ourTip = theirTip then .ok (some ourTip)
  else do
    let ourChain ← ancestorWalk store (maxReorgDepthPolicy + 1) ourTip []
    firstSeen store ourChain (maxReorgDepthPolicy + 1) theirTip

/-- Refuse a reorganization deeper than the policy limit. -/
def checkReorgDepth (disconnectCount : Nat) : Result Unit :=
  rejectIf (disconnectCount > maxReorgDepthPolicy) (.policyRejected
    s!"reorg depth {disconnectCount} exceeds MAX_REORG_DEPTH_POLICY {maxReorgDepthPolicy}")

/-- Refuse a reorganization of an established chain that disconnects too many blocks. -/
def checkRollingFinality (localTipHeight disconnectCount : Nat) : Result Unit :=
  rejectIf (localTipHeight ≥ maxReorgDepth ∧ disconnectCount ≥ maxReorgDepth) (.policyRejected
    (s!"rolling finality rejects reorg depth {disconnectCount} at local height " ++
      s!"{localTipHeight} (maximum accepted depth is {maxReorgDepth - 1})"))

/-! ## Branches -/

/-- Check the syntax of all headers of a branch, from its tip down. -/
def validateBranchHeaderSyntax (store : Store) (ancestor : Hash256) (networkMagic : UInt32) :
    (fuel : Nat) → (cursor : Hash256) → Result Unit
  | 0, _ => .error walkError
  | fuel + 1, cursor =>
    if cursor = ancestor then .ok ()
    else do
      let header ← store.requireHeader cursor
        (.internal s!"reorg candidate header missing during validation: {cursor.toHex}")
      mapError (fun e => .invalid
        (s!"reorg candidate header validation failed: hash={cursor.toHex}, " ++
          s!"error={e.display}")) (validateHeaderSyntax header networkMagic)
      validateBranchHeaderSyntax store ancestor networkMagic fuel header.prevHash

/-- The blocks of a branch with their hashes, from its tip down to the ancestor. -/
def collectBranchBlocks (store : Store) (ancestor : Hash256) :
    (fuel : Nat) → (tip : Hash256) → Result (List (Hash256 × Block))
  | 0, _ => .error walkError
  | fuel + 1, tip =>
    if tip = ancestor then .ok []
    else do
      let body ← okOr (.internal s!"reorg block body missing: {tip.toHex}")
        store.blockBodies[tip]?
      let block ← mapError (fun e => .internal
        s!"reorg block body decode failed for {tip.toHex}: {e.display}") (fromBytes Block body)
      let headerBytes ← toBytes block.header
      let rest ← collectBranchBlocks store ancestor fuel block.header.prevHash
      pure ((computeBlockHash headerBytes, block) :: rest)

/-! ## Effects of a block -/

/-- The entry of an output created at a height. -/
def TransactionOutput.entry (output : TransactionOutput) (height : BlockHeight)
    (isCoinbase : Bool) : Octets 33 × UtxoEntry :=
  (output.commitment.bytes, ⟨height, isCoinbase, output.proof⟩)

/-- The entries a transaction creates at a height. -/
def Transaction.outputEntries (tx : Transaction) (height : BlockHeight) :
    List (Octets 33 × UtxoEntry) :=
  tx.outputs.map (·.entry height false)

/-- The entries a block creates, the coinbase first. -/
def Block.outputEntries (block : Block) : List (Octets 33 × UtxoEntry) :=
  block.coinbase.output.entry block.header.height true ::
    block.transactions.flatMap (·.outputEntries block.header.height)

/-- The entries as they are stored. -/
def storedEntries (entries : List (Octets 33 × UtxoEntry)) : List (Octets 33 × Bytes) :=
  entries.map fun entry => (entry.1, entry.2.toBytes)

/-- The outputs a block creates and the commitments it spends, as they are stored. -/
def buildUtxoChangeset (block : Block) : List (Octets 33 × Bytes) × List (Octets 33) :=
  (storedEntries block.outputEntries, block.inputKeys)

/-- Excesses of a block, the coinbase first. -/
def Block.excessKeys (block : Block) : List (Octets 33) :=
  block.coinbase.kernel.excess.bytes ::
    block.transactions.flatMap (·.kernels.map (·.excess.bytes))

/-- The kernel index entries of a block. -/
def extractKernelExcesses (block : Block) (blockHash : Hash256) : List (Octets 33 × Hash256) :=
  block.excessKeys.map (·, blockHash)

/-! ## Undoing and applying blocks on overlays -/

/-- Pending changes of a reorganization. -/
structure Overlays where
  utxo : Table (Octets 33) (Option UtxoEntry)
  kernel : Table (Octets 33) (Option Hash256)

/-- No pending changes. -/
def Overlays.empty : Overlays := ⟨∅, ∅⟩

/-- An unspent output, read through the overlay. -/
def lookupUtxo (store : Store) (overlay : Table (Octets 33) (Option UtxoEntry))
    (commitment : Octets 33) : Result (Option UtxoEntry) :=
  match overlay[commitment]? with
  | some entry => .ok entry
  | none => store.getUtxo commitment

/-- A kernel index entry, read through the overlay. -/
def lookupKernel (store : Store) (overlay : Table (Octets 33) (Option Hash256))
    (excess : Octets 33) : Option Hash256 :=
  Table.view overlay (fun excess => store.kernels[excess]?) excess

/-- The creation of a commitment in the highest of the canonical blocks below height `n`. -/
def findCanonicalOutputEntry (store : Store) (commitment : Octets 33) :
    (n : Nat) → Result (Option UtxoEntry)
  | 0 => .ok none
  | n + 1 =>
    match store.heightIndex[UInt64.ofNat n]? with
    | none => findCanonicalOutputEntry store commitment n
    | some hash =>
      match store.blockBodies[hash]? with
      | none => findCanonicalOutputEntry store commitment n
      | some body =>
        if n = 0 ∧ (validateMainnetGenesisIdentity body).isOk then
          findCanonicalOutputEntry store commitment n
        else do
          let block ← mapError (fun e => .internal
            (s!"decode canonical block {hash.toHex} while resurrecting " ++
              s!"{hexNat 66 commitment.toNat}: {e.display}")) (fromBytes Block body)
          match block.outputEntries.lookup commitment with
          | some entry => .ok (some entry)
          | none => findCanonicalOutputEntry store commitment n

/-- Mark a spent output unspent again. -/
def resurrect (store : Store) (ancestorHeight : Nat) (index : Table (Octets 33) UtxoEntry)
    (overlay : Table (Octets 33) (Option UtxoEntry)) (commitment : Octets 33) :
    Result (Table (Octets 33) (Option UtxoEntry)) := do
  let canonical ← findCanonicalOutputEntry store commitment (ancestorHeight + 1)
  let entry ← okOr (.internal
    s!"reorg disconnect could not resurrect spent output {hexNat 66 commitment.toNat}")
    (index[commitment]?.or canonical)
  pure (overlay.insert commitment (some entry))

/-- Undo a block of the old branch. -/
def applyDisconnect (store : Store) (ancestorHeight : Nat) (index : Table (Octets 33) UtxoEntry)
    (overlays : Overlays) (indexed : Hash256 × Block) : Result Overlays := do
  let released := Table.insertAll (indexed.2.outputKeys.map (·, none)) overlays.utxo
  let utxo ← indexed.2.inputKeys.foldlM (resurrect store ancestorHeight index) released
  let kernel := Table.insertAll (indexed.2.excessKeys.map (·, none)) overlays.kernel
  pure ⟨utxo, kernel⟩

/-- Spend an input of a block of the new branch. -/
def connectInput (store : Store) (maturity height : UInt64)
    (overlay : Table (Octets 33) (Option UtxoEntry)) (commitment : Octets 33) :
    Result (Table (Octets 33) (Option UtxoEntry)) := do
  let found ← lookupUtxo store overlay commitment
  let entry ← okOr (.invalid
    s!"reorg connect missing input commitment {hexNat 66 commitment.toNat}") found
  rejectIf (entry.isCoinbase = true ∧ entry.isMatureFor height maturity = false) (.invalid
    (s!"reorg connect spends immature coinbase at height {height} " ++
      s!"(created at {entry.blockHeight}, maturity {maturity})"))
  pure (overlay.insert commitment none)

/-- Create an output of a block of the new branch. -/
def connectOutput (store : Store) (overlay : Table (Octets 33) (Option UtxoEntry))
    (entry : Octets 33 × UtxoEntry) : Result (Table (Octets 33) (Option UtxoEntry)) := do
  let found ← lookupUtxo store overlay entry.1
  rejectIf (found.isSome = true) (.invalid
    s!"reorg connect duplicate output commitment {hexNat 66 entry.1.toNat}")
  pure (overlay.insert entry.1 (some entry.2))

/-- Index a kernel of a block of the new branch. -/
def connectKernel (store : Store) (blockHash : Hash256)
    (overlay : Table (Octets 33) (Option Hash256)) (excess : Octets 33) :
    Result (Table (Octets 33) (Option Hash256)) := do
  rejectIf ((lookupKernel store overlay excess).isSome = true) (.invalid
    s!"reorg connect kernel replay detected: excess={hexNat 66 excess.toNat}")
  pure (overlay.insert excess (some blockHash))

/-- Apply a block of the new branch. -/
def applyConnect (store : Store) (maturity : UInt64) (overlays : Overlays)
    (indexed : Hash256 × Block) : Result Overlays := do
  let spent ← indexed.2.inputKeys.foldlM
    (connectInput store maturity indexed.2.header.height) overlays.utxo
  let utxo ← indexed.2.outputEntries.foldlM (connectOutput store) spent
  let kernel ← indexed.2.excessKeys.foldlM (connectKernel store indexed.1) overlays.kernel
  pure ⟨utxo, kernel⟩

/-- The outputs created on the old branch; the lowest creation of a commitment is kept. -/
def disconnectOutputIndex (disconnect : List (Hash256 × Block)) : Table (Octets 33) UtxoEntry :=
  disconnect.foldl (fun index indexed => Table.insertAll indexed.2.outputEntries index) ∅

/-! ## Store updates -/

/-- The store update of one touched commitment, if one is needed. -/
def utxoUpdate (commitment : Octets 33) (current desired : Option UtxoEntry) :
    Result (Option (Octets 33 × Option Bytes)) :=
  match current, desired with
  | some current, some desired =>
    if current.toBytes = desired.toBytes then .ok none
    else if current.proof = desired.proof ∧ current.isCoinbase = desired.isCoinbase then
      .ok (some (commitment, some desired.toBytes))
    else .error (.internal
      (s!"reorg utxo mismatch for existing commitment {hexNat 66 commitment.toNat}: " ++
        s!"current_height={current.blockHeight} desired_height={desired.blockHeight}"))
  | none, some desired => .ok (some (commitment, some desired.toBytes))
  | some _, none => .ok (some (commitment, none))
  | none, none => .ok none

/-- The store updates of all touched commitments. -/
def buildUtxoUpdates (store : Store) (overlay : Table (Octets 33) (Option UtxoEntry)) :
    Result (List (Octets 33 × Option Bytes)) := do
  let updates ← overlay.toList.mapM fun entry => do
    let current ← store.getUtxo entry.1
    utxoUpdate entry.1 current entry.2
  pure (updates.filterMap id)

/-- The store updates of all touched kernels. -/
def buildKernelUpdates (store : Store) (overlay : Table (Octets 33) (Option Hash256)) :
    List (Octets 33 × Option Hash256) :=
  overlay.toList.filter fun entry => store.kernels[entry.1]? ≠ entry.2

/-! ## Canonical replay -/

/-- Replay one canonical block on the unspent set. -/
def replayBlock (height : Nat) (utxos : Table (Octets 33) Bytes) (block : Block) :
    Result (Table (Octets 33) Bytes) := do
  let utxos ← Table.putNew (fun entry => .internal
    (s!"{chainCorruptSentinel}: duplicate coinbase UTXO commitment " ++
      s!"{hexNat 66 entry.1.toNat} at height {height} during UTXO rebuild")) utxos
    ((block.coinbase.output.entry block.header.height true).map id UtxoEntry.toBytes)
  block.transactions.foldlM (fun utxos tx => do
    let utxos ← Table.deleteAll (fun commitment => .internal
      (s!"{chainCorruptSentinel}: canonical spend references missing UTXO " ++
        s!"{hexNat 66 commitment.toNat} at height {height} during UTXO rebuild")) tx.inputKeys utxos
    Table.putAllNew (fun entry => .internal
      (s!"{chainCorruptSentinel}: duplicate output UTXO commitment " ++
        s!"{hexNat 66 entry.1.toNat} at height {height} during UTXO rebuild"))
      (storedEntries (tx.outputEntries block.header.height)) utxos) utxos

/-- The canonical block at a height, decoded and checked against the height index; `none` is the
mainnet genesis envelope. The two texts are those the two rebuild passes add to their errors. -/
def canonicalBlockAt (store : Store) (networkMagic : UInt32) (during duringDecode : String)
    (height : Nat) : Result (Option (Hash256 × Block)) := do
  let hash ← okOr (.internal
    (s!"{chainCorruptSentinel}: missing canonical height_index entry at height {height}" ++ during))
    store.heightIndex[UInt64.ofNat height]?
  let body ← okOr (.internal
    (s!"{chainCorruptSentinel}: canonical block {hash.toHex} has no body" ++ during))
    store.blockBodies[hash]?
  if height = 0 ∧ networkMagic = networkMagicMainnet ∧ (validateMainnetGenesisIdentity body).isOk
  then pure none
  else do
    let block ← mapError (fun e => .internal
      (s!"{chainCorruptSentinel}: canonical block {hash.toHex} body decode failed" ++ duringDecode ++
        s!": {e.display}")) (fromBytes Block body)
    let headerBytes ← toBytes block.header
    let computed ← canonicalHeaderIdentifier networkMagic headerBytes
    rejectIf (computed ≠ hash) (.internal
      (s!"{chainCorruptSentinel}: canonical block body/header hash mismatch at height {height}" ++
        during ++ s!": height_index={hash.toHex} body_header={computed.toHex}"))
    pure (some (computed, block))

/-- Replay the canonical block at a height. -/
def replayHeight (store : Store) (networkMagic : UInt32) (utxos : Table (Octets 33) Bytes)
    (height : Nat) : Result (Table (Octets 33) Bytes) := do
  let found ← canonicalBlockAt store networkMagic " during UTXO rebuild"
    " during UTXO rebuild" height
  match found with
  | none => pure utxos
  | some indexed => replayBlock height utxos indexed.2

/-- The unspent set of the canonical chain, from genesis to the tip. -/
def reconstructCanonicalUtxoSet (store : Store) (tipHeight : BlockHeight) (networkMagic : UInt32) :
    Result (Table (Octets 33) Bytes) :=
  (List.range (tipHeight.toNat + 1)).foldlM (replayHeight store networkMagic) ∅

/-- Digest of an unspent set. -/
def digestUtxoEntries (utxos : Table (Octets 33) Bytes) : Hash256 :=
  Primitives.blake2b256 (tagOctets "DOM_CANONICAL_UTXO_SET_V1" ++
    utxos.toList.flatMap fun entry => entry.1.toList ++ leBytes 4 entry.2.length ++ entry.2)

/-- Compare the stored unspent set with the canonical one; a difference is repaired only on
request. -/
def ensureCanonicalUtxoSet (store : Store) (tipHeight : BlockHeight) (networkMagic : UInt32)
    (allowUtxoRepair : Bool) : Result Store := do
  let canonical ← reconstructCanonicalUtxoSet store tipHeight networkMagic
  let digest := digestUtxoEntries canonical
  if store.utxos = canonical then
    pure (if store.utxoSetDigest = some digest then store else store.persistUtxoSetDigest digest)
  else do
    rejectIf (allowUtxoRepair = false) (.internal
      (s!"{chainCorruptSentinel}: persisted UTXO set diverges from the canonical set " ++
        s!"reconstructed from block history (persisted_entries={store.utxos.size}, " ++
        s!"canonical_entries={canonical.size}). This indicates disk corruption or tampering of " ++
        "the UTXO database. The node refuses to open on a divergent UTXO set rather than " ++
        "silently healing it. To rebuild the UTXO set from canonical block history, restart in " ++
        "the explicit operator UTXO-repair mode (ChainState::open_with_utxo_repair)."))
    pure (store.replaceUtxoSet canonical digest)

/-! ## Retention of side chains -/

/-- A side-chain tip that may be retained. -/
structure RetainedSideTip where
  hash : Hash256
  height : UInt64
  totalDifficulty : U256

/-- The order in which tips are retained: more work, then lower hash, then greater height. -/
def RetainedSideTip.Before (left right : RetainedSideTip) : Prop :=
  left.totalDifficulty > right.totalDifficulty ∨
    (left.totalDifficulty = right.totalDifficulty ∧
      (left.hash < right.hash ∨ (left.hash = right.hash ∧ left.height ≥ right.height)))

instance : DecidableRel RetainedSideTip.Before := fun _ _ =>
  inferInstanceAs (Decidable (_ ∨ (_ ∧ (_ ∨ (_ ∧ _)))))

/-- The canonical hashes up to a height. -/
def canonicalHashes (store : Store) (canonicalTipHeight : BlockHeight) : List Hash256 :=
  (List.range (canonicalTipHeight.toNat + 1)).filterMap fun height =>
    store.heightIndex[UInt64.ofNat height]?

/-- The height of a common ancestor; the missing ancestor of genesis has height 0. -/
def ancestorHeightOf (store : Store) (ancestor : Hash256) : Result (Option UInt64) :=
  if ancestor = Hash256.zero then .ok (some 0)
  else
    match store.blocks[ancestor]? with
    | none => .ok none
    | some bytes => do
      let header ← fromBytes BlockHeader bytes
      pure (some header.height)

/-- The retention candidate of a side-chain tip, if its branch is within the limits. -/
def retentionCandidate (store : Store) (canonicalTipHeight : BlockHeight)
    (canonicalTipHash : Hash256) (indexed : Hash256 × BlockHeader) :
    Result (Option RetainedSideTip) := do
  let ancestor ← findCommonAncestor store canonicalTipHash indexed.1
  match ancestor with
  | none => pure none
  | some ancestor =>
    if ancestor = indexed.1 then pure none
    else do
      let height ← ancestorHeightOf store ancestor
      match height with
      | none => pure none
      | some ancestorHeight =>
        let disconnectDepth := canonicalTipHeight.toNat - ancestorHeight.toNat
        let branchLength := indexed.2.height.toNat - ancestorHeight.toNat
        if disconnectDepth > maxRetainedSideBranchReorgDepth ∨
            branchLength > maxRetainedSideBranchLength then pure none
        else pure (some ⟨indexed.1, indexed.2.height, indexed.2.totalDifficulty⟩)

/-- Keep a block and its ancestors, until one is already kept. -/
def keepBranch (store : Store) : (fuel : Nat) → (keep : List Hash256) → (cursor : Hash256) →
    Result (List Hash256)
  | 0, keep, _ => .ok keep
  | fuel + 1, keep, cursor =>
    if cursor ∈ keep then .ok keep
    else if fuel = 0 then .ok (cursor :: keep)
    else
      match store.blocks[cursor]? with
      | none => .ok (cursor :: keep)
      | some bytes => do
        let header ← fromBytes BlockHeader bytes
        if header.prevHash = Hash256.zero then .ok (cursor :: keep)
        else keepBranch store fuel (cursor :: keep) header.prevHash

/-- The stored headers that are not canonical. -/
def noncanonicalHeaders (store : Store) (canonical : List Hash256) :
    Result (List (Hash256 × BlockHeader)) :=
  (store.blocks.toList.filter fun entry => entry.1 ∉ canonical).mapM fun entry => do
    let header ← fromBytes BlockHeader entry.2
    pure (entry.1, header)

/-- The hashes of side-chain blocks that are not retained. -/
def pruneHashes (store : Store) (canonicalTipHeight : BlockHeight) (canonicalTipHash : Hash256) :
    Result (List Hash256) := do
  let canonical := canonicalHashes store canonicalTipHeight
  let noncanonical ← noncanonicalHeaders store canonical
  let childParents := noncanonical.map (·.2.prevHash)
  let candidates ← (noncanonical.filter fun indexed => indexed.1 ∉ childParents).mapM
    (retentionCandidate store canonicalTipHeight canonicalTipHash)
  let tips := ((candidates.filterMap id).insertionSort RetainedSideTip.Before).take
    maxRetainedSideBranchTips
  let keep ← tips.foldlM
    (fun keep tip => keepBranch store (maxRetainedSideBranchLength + 1) keep tip.hash) canonical
  pure ((noncanonical.map Prod.fst).filter (· ∉ keep))

/-- Delete the side-chain blocks that are not retained. -/
def pruneRetainedSideChains (store : Store) (canonicalTipHeight : BlockHeight)
    (canonicalTipHash : Hash256) : Result Store := do
  let hashes ← pruneHashes store canonicalTipHeight canonicalTipHash
  pure (store.pruneKnownBlocks hashes)

end DomProtocol
