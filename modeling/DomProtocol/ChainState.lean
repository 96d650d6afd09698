import DomProtocol.Reorg

/-! # Chain state (`dom-chain::chain_state`)

The node's view of the chain: a store, the canonical tip, and the two operations that move it,
**`connectBlock`** and **`promoteHeavierKnownTip`**.

An operation returns the state it leaves behind together with its result, because a failure does not
always leave the state unchanged: a side-chain block whose branch cannot be promoted stays stored.
Everything before the first write is a pure function to `Result`. -/

namespace DomProtocol

variable [Primitives]

/-- **The state of a chain.** -/
structure ChainState where
  store : Store
  tipHash : Hash256
  tipHeight : BlockHeight
  tipDifficulty : U256
  genesisHash : Hash256
  networkMagic : UInt32
  coinbaseMaturity : UInt64

/-- The coinbase maturity of a network. -/
def coinbaseMaturityForMagic (magic : UInt32) : UInt64 :=
  if magic = networkMagicRegtest then regtestCoinbaseMaturity else coinbaseMaturity

/-- Whether a candidate tip outranks the current one: more work, or equal work and a lower hash. -/
def isBetterForkChoiceTip (candidateTotalDifficulty : U256) (candidateHash : Hash256)
    (currentTotalDifficulty : U256) (currentHash : Hash256) : Bool :=
  candidateTotalDifficulty > currentTotalDifficulty ∨
    (candidateTotalDifficulty = currentTotalDifficulty ∧ candidateHash < currentHash)

/-- One block of a reorganization. -/
structure ReorgBlockDelta where
  blockHash : Hash256
  blockHeight : UInt64
  transactions : List Transaction

/-- What a reorganization did. -/
structure ReorgDelta where
  commonAncestorHeight : UInt64
  disconnectedBlocks : List ReorgBlockDelta
  connectedBlocks : List ReorgBlockDelta
  disconnectedTxs : List Transaction
  connectedTxs : List Transaction

/-- Outcome of connecting a block. -/
inductive ConnectResult where
  | BestChain
  | Reorg (delta : ReorgDelta)
  | SideChain
  | AlreadyHave

namespace ChainState

/-! ## Genesis identity -/

/-- Check a genesis header against the configured and the stored genesis. -/
def validateGenesisIdentity (s : ChainState) (header : BlockHeader) (headerHash : Hash256) :
    Result Unit :=
  if header.height ≠ 0 then .ok ()
  else do
    rejectIf (s.networkMagic = networkMagicMainnet) (.invalid
      ("Mainnet genesis is accepted only through the canonical identity-envelope " ++
        "bootstrap path"))
    rejectIf (s.genesisHash ≠ Hash256.zero ∧ headerHash ≠ s.genesisHash) (.invalid
      s!"genesis hash mismatch: expected {s.genesisHash.toHex}, got {headerHash.toHex}")
    match s.store.heightIndex[(0 : UInt64)]? with
    | none => .ok ()
    | some existing => rejectIf (existing ≠ headerHash) (.invalid
        (s!"alternate genesis block rejected: canonical genesis already exists as " ++
          s!"{existing.toHex}"))

/-- Check that the genesis of a configured network has the frozen body. -/
def validateGenesisBodyIdentity (s : ChainState) (block : Block) : Result Unit :=
  if block.header.height ≠ 0 ∨ s.networkMagic = networkMagicMainnet then .ok ()
  else do
    let configured ← configuredGenesisHashForNetworkMagic s.networkMagic
    if s.genesisHash ≠ configured then pure ()
    else do
      let canonical ← buildCanonicalGenesis s.networkMagic (deriveChainId s.networkMagic configured)
      let actual ← toBytes block
      rejectIf (actual ≠ canonical.blockBytes) (.invalid
        ("genesis body mismatch: configured network requires the exact frozen canonical " ++
          "body"))

/-! ## Header context -/

/-- The future limit of the network. -/
def maxFutureBlockTime (s : ChainState) : UInt64 :=
  if s.networkMagic = networkMagicTestnet then testnetMaxFutureBlockTime
  else DomProtocol.maxFutureBlockTime

/-- The timestamps of up to `count` blocks from a cursor back. -/
def getRecentTimestamps (s : ChainState) : (count : Nat) → (cursor : Hash256) →
    Result (List Timestamp)
  | 0, _ => .ok []
  | count + 1, cursor =>
    if cursor = Hash256.zero then .ok []
    else
      match s.store.blocks[cursor]? with
      | none => .ok []
      | some bytes => do
        let header ← fromBytes BlockHeader bytes
        let earlier ← getRecentTimestamps s count header.prevHash
        pure (header.timestamp :: earlier)

/-- The canonical seed of a height. -/
def computeRandomxSeed (s : ChainState) (height : BlockHeight) : Result Hash256 :=
  let seedHeight := randomxSeedHeight height.toNat
  match s.store.heightIndex[UInt64.ofNat seedHeight]? with
  | some hash => do
    let bytes ← okOr (.internal
      s!"RandomX seed height {seedHeight} points to missing header {hash.toHex}")
      s.store.blocks[hash]?
    let header ← mapError (fun e => .internal
      s!"RandomX seed header at height {seedHeight} is malformed: {e.display}")
      (fromBytes BlockHeader bytes)
    rejectIf (header.height.toNat ≠ seedHeight) (.internal
      s!"RandomX seed height index mismatch: key {seedHeight}, header {header.height}")
    pure hash
  | none =>
    if seedHeight = 0 then .ok Hash256.zero
    else .error (.internal
      (s!"RandomX seed block at height {seedHeight} missing from committed store " ++
        s!"(needed for block at height {height})"))

/-- Walk back from a parent until the canonical chain or the seed height is met. -/
def seedWalk (s : ChainState) (height : BlockHeight) : (fuel : Nat) → (cursor : Hash256) →
    Result Hash256
  | 0, _ => .error (.invalid
      (s!"randomx seed walk exceeded max reorg depth {maxReorgDepthPolicy} for block at " ++
        s!"height {height}"))
  | fuel + 1, cursor => do
    let header ← s.store.requireHeader cursor (.internal
      s!"randomx seed walk: missing header {cursor.toHex}")
    if s.store.heightIndex[header.height]? = some cursor then s.computeRandomxSeed height
    else if header.height.toNat = randomxSeedHeight height.toNat then .ok cursor
    else if header.height.toNat < randomxSeedHeight height.toNat then .error (.internal
      (s!"randomx seed walk underran seed_height {randomxSeedHeight height.toNat} at height " ++
        s!"{header.height}"))
    else seedWalk s height fuel header.prevHash

/-- The seed of a block on its own branch. -/
def computeRandomxSeedBranchAware (s : ChainState) (height : BlockHeight)
    (parentHash : Hash256) : Result Hash256 :=
  if randomxSeedHeight height.toNat = 0 then s.computeRandomxSeed height
  else s.seedWalk height (maxReorgDepthPolicy + 1) parentHash

/-- Target metadata of a child block. -/
structure ExpectedTarget where
  previousTarget : Target
  nextTarget : Target
  heightDelta : UInt64
  actualElapsedSecs : UInt64
  expectedElapsedSecs : Nat

/-- The target a child of a header must have. -/
def expectedTargetForChild (s : ChainState) (parent : BlockHeader) (childTimestamp : Timestamp)
    (childHeight : BlockHeight) : Result ExpectedTarget := do
  let previousTarget ← parent.expandTarget
  let nextTarget ← computeExpectedTarget s.networkMagic childTimestamp childHeight
  let params ← powParamsForNetworkAtHeight s.networkMagic childHeight
  let anchor ← asertAnchorForNetworkHeight s.networkMagic childHeight
  let heightDelta ← okOr (.invalid "height before ASERT anchor")
    (checkedSub childHeight anchor.height)
  let actualElapsedSecs ← okOr (.invalid "timestamp before ASERT anchor")
    (checkedSub childTimestamp anchor.timestamp)
  rejectIf (params.targetSpacing * heightDelta.toNat ≥ 2 ^ 64) (.invalid
    "ASERT expected elapsed overflow")
  pure ⟨previousTarget, nextTarget, heightDelta, actualElapsedSecs,
    params.targetSpacing * heightDelta.toNat⟩

/-- Check the target of a header against its parent. -/
def validateExpectedTarget (s : ChainState) (header parent : BlockHeader) : Result Unit := do
  let expected ← s.expectedTargetForChild parent header.timestamp header.height
  let actualTarget ← header.expandTarget
  rejectIf (actualTarget ≠ expected.nextTarget) (.invalid
    (s!"target mismatch at height {header.height}: expected={expected.nextTarget.toHex} " ++
      s!"got={actualTarget.toHex} height_delta={expected.heightDelta} " ++
      s!"actual_elapsed={expected.actualElapsedSecs} " ++
      s!"expected_elapsed={expected.expectedElapsedSecs}"))

/-- Check that a height is one above that of the parent. -/
def validateNextHeight (header parent : BlockHeader) : Result Unit := do
  let expectedHeight ← okOr (.invalid "block height overflow") (checkedAdd parent.height 1)
  rejectIf (header.height ≠ expectedHeight) (.invalid
    s!"height mismatch: expected {expectedHeight}, got {header.height}")

/-- The stored parent of a header, checked against it; genesis has none. -/
def validateParent (s : ChainState) (header : BlockHeader) : Result (Option BlockHeader) :=
  if header.height = 0 then .ok none
  else do
    let parent ← s.store.requireHeader header.prevHash
      (.orphan s!"parent {header.prevHash.toHex} not found")
    validateNextHeight header parent
    validateParentTimestampProgression header parent
    let ancestors ← s.getRecentTimestamps medianTimeWindow header.prevHash
    validateMedianTimePast header ancestors
    pure (some parent)

/-- Check the target of a header that has a parent. -/
def validateTargetOverParent (s : ChainState) (header : BlockHeader) :
    Option BlockHeader → Result Unit
  | none => .ok ()
  | some parent => s.validateExpectedTarget header parent

/-- The work a header builds on. -/
def parentDifficulty (parent : Option BlockHeader) : U256 :=
  (parent.map BlockHeader.totalDifficulty).getD 0

/-- **The checks `connect_block` makes of a header** that follow its identity. -/
def validateHeaderContext (s : ChainState) (header : BlockHeader) (now : Timestamp) :
    Result Unit := do
  let parent ← s.validateParent header
  validateFutureTimestampWithLimit header now s.maxFutureBlockTime
  let seed ← s.computeRandomxSeedBranchAware header.height header.prevHash
  validatePowForNetwork s.networkMagic header seed
  s.validateTargetOverParent header parent
  validateTotalDifficulty s.networkMagic header (parentDifficulty parent)

/-- The identifier the kernels of the chain are signed for. -/
def chainId (s : ChainState) : Hash256 := deriveChainId s.networkMagic s.genesisHash

/-- Validate a block whose header has been checked. -/
def validateBlockBody (s : ChainState) (block : Block) (now : Timestamp)
    (message : DomError → String) : Result Unit :=
  mapError (fun e => .invalid (message e))
    (validateBlockForNetwork block ⟨block.header.height, s.chainId, now⟩ s.networkMagic)

/-- Everything `connect_block` checks before it looks at the tip. -/
def validateNewBlock (s : ChainState) (block : Block) (blockHash : Hash256) (now : Timestamp) :
    Result Unit := do
  validateHeaderSyntax block.header s.networkMagic
  s.validateGenesisIdentity block.header blockHash
  s.validateGenesisBodyIdentity block
  s.validateHeaderContext block.header now
  s.validateBlockBody block now fun e =>
    s!"block validation failed: hash={blockHash.toHex}, error={e.display}"

/-! ## Direct extension -/

/-- Check that an input is there and mature. -/
def validateDirectInput (s : ChainState) (height : BlockHeight) (commitment : Octets 33) :
    Result Unit := do
  let found ← s.store.getUtxo commitment
  let entry ← okOr (.invalid
    s!"input commitment not found in UTXO set: {hexNat 66 commitment.toNat}") found
  rejectIf (entry.isCoinbase = true ∧ entry.isMatureFor height s.coinbaseMaturity = false)
    (.invalid (s!"immature coinbase spend at height {height} " ++
      s!"(created at {entry.blockHeight}, maturity {s.coinbaseMaturity})"))

/-- Check the inputs of a block that extends the tip. -/
def validateDirectExtensionInputs (s : ChainState) (block : Block) : Result Unit :=
  forEach (s.validateDirectInput block.header.height) block.inputKeys

/-- Check that an output is new. -/
def validateDirectOutput (s : ChainState) (commitment : Octets 33) : Result Unit := do
  let found ← s.store.getUtxo commitment
  rejectIf (found.isSome = true) (.invalid
    s!"direct connect duplicate output commitment {hexNat 66 commitment.toNat}")

/-- Check that a kernel is new. -/
def validateDirectKernel (s : ChainState) (excess : Octets 33) : Result Unit :=
  rejectIf (s.store.kernels.contains excess = true) (.invalid
    s!"direct connect kernel replay detected: excess={hexNat 66 excess.toNat}")

/-- Check a block against the unspent set and the kernel index, and commit it. -/
def commitDirectExtension (s : ChainState) (block : Block) (blockHash : Hash256) :
    Result Store := do
  let changeset := buildUtxoChangeset block
  s.validateDirectExtensionInputs block
  forEach s.validateDirectOutput block.outputKeys
  forEach s.validateDirectKernel block.excessKeys
  let headerBytes ← toBytes block.header
  let blockBodyBytes ← toBytes block
  s.store.commitBlock blockHash block.header.height headerBytes blockBodyBytes changeset.1
    changeset.2 (extractKernelExcesses block blockHash)

/-- Move the tip of a state with a new store. -/
def withTip (s : ChainState) (store : Store) (tipHash : Hash256) (header : BlockHeader) :
    ChainState :=
  { s with
    store := store
    tipHash := tipHash
    tipHeight := header.height
    tipDifficulty := header.totalDifficulty }

/-- Prune side chains; the state keeps its store if that fails. -/
def pruned {α : Type} (s : ChainState) (result : α) : ChainState × Result α :=
  match pruneRetainedSideChains s.store s.tipHeight s.tipHash with
  | .error e => (s, .error e)
  | .ok store => ({ s with store := store }, .ok result)

/-- Whether a block outranks the tip. -/
def outranksTip (s : ChainState) (header : BlockHeader) (blockHash : Hash256) : Bool :=
  isBetterForkChoiceTip header.totalDifficulty blockHash s.tipDifficulty s.tipHash

/-- The commit of a direct extension, which must outrank the tip. -/
def prepareDirectExtension (s : ChainState) (block : Block) (blockHash : Hash256) :
    Result Store := do
  rejectIf (s.outranksTip block.header blockHash = false) (.invalid
    (s!"direct extension did not improve fork choice: " ++
      s!"new_total={block.header.totalDifficulty.toNat} " ++
      s!"current_total={s.tipDifficulty.toNat} new_hash={blockHash.toHex} " ++
      s!"current_hash={s.tipHash.toHex}"))
  s.commitDirectExtension block blockHash

/-- Connect a valid block on top of the tip. -/
def connectDirect (s : ChainState) (block : Block) (blockHash : Hash256) :
    ChainState × Result ConnectResult :=
  match s.prepareDirectExtension block blockHash with
  | .error e => (s, .error e)
  | .ok store => (s.withTip store blockHash block.header).pruned .BestChain

/-! ## Promotion of a side branch -/

/-- The height of a common ancestor of the tip. -/
def ancestorHeight (s : ChainState) (ancestor : Hash256) : Result UInt64 :=
  if ancestor = s.tipHash then .ok s.tipHeight
  else do
    let header ← s.store.requireHeader ancestor
      (.internal s!"reorg ancestor header missing: {ancestor.toHex}")
    pure header.height

/-- Validate a block of a branch to be connected. -/
def validateBranchBlock (s : ChainState) (now : Timestamp) (indexed : Hash256 × Block) :
    Result Unit := do
  validateFutureTimestampWithLimit indexed.2.header now s.maxFutureBlockTime
  s.validateBlockBody indexed.2 now fun e =>
    s!"reorg candidate block validation failed: hash={indexed.1.toHex}, error={e.display}"

/-- The height index changes of a reorganization. -/
def heightUpdates (s : ChainState) (ancestorHeight : Nat) (connect : List (Hash256 × Block)) :
    Table UInt64 (Option Hash256) :=
  let cleared := Table.insertAll
    ((List.range' (ancestorHeight + 1) (s.tipHeight.toNat - ancestorHeight)).map
      fun height => (UInt64.ofNat height, none)) ∅
  Table.insertAll (connect.map fun indexed => (indexed.2.header.height, some indexed.1)) cleared

/-- The branches of a reorganization: the fork height, the blocks to disconnect from the tip down and
the blocks to connect from the fork up. -/
structure Fork where
  ancestorHeight : UInt64
  disconnect : List (Hash256 × Block)
  connect : List (Hash256 × Block)

/-- Find the fork between the tip and a stored branch that outranks it, within the limits. -/
def findFork (s : ChainState) (newTipHash : Hash256) (newTipHeader : BlockHeader) :
    Result Fork := do
  let found ← findCommonAncestor s.store s.tipHash newTipHash
  let ancestor ← okOr (.invalid "heavier side chain has no common ancestor")
    (found.filter (· ≠ Hash256.zero))
  let height ← s.ancestorHeight ancestor
  validateBranchHeaderSyntax s.store ancestor s.networkMagic walkFuel newTipHash
  rejectIf (s.outranksTip newTipHeader newTipHash = false) (.policyRejected
    (s!"reorg target is not heavier or tie-preferred: " ++
      s!"new_total={newTipHeader.totalDifficulty.toNat} " ++
      s!"current_total={s.tipDifficulty.toNat} new_hash={newTipHash.toHex} " ++
      s!"current_hash={s.tipHash.toHex}"))
  let reorgDepth ← okOr (.internal "reorg ancestor is above local tip")
    (checkedSub s.tipHeight height)
  checkRollingFinality s.tipHeight.toNat reorgDepth.toNat
  checkReorgDepth reorgDepth.toNat
  let disconnect ← collectBranchBlocks s.store ancestor walkFuel s.tipHash
  rejectIf (disconnect.length ≠ reorgDepth.toNat) (.internal
    (s!"reorg depth mismatch: height-derived={reorgDepth}, " ++
      s!"collected={disconnect.length}"))
  let branch ← collectBranchBlocks s.store ancestor walkFuel newTipHash
  pure ⟨height, disconnect, branch.reverse⟩

/-- Undo the old branch and apply the new one on overlays. -/
def Fork.overlays (fork : Fork) (s : ChainState) : Result Overlays := do
  let index := disconnectOutputIndex fork.disconnect
  let undone ← fork.disconnect.foldlM
    (applyDisconnect s.store fork.ancestorHeight.toNat index) Overlays.empty
  fork.connect.foldlM (applyConnect s.store s.coinbaseMaturity) undone

/-- The store after a reorganization. -/
def Fork.switch (fork : Fork) (s : ChainState) (newTipHash : Hash256) : Result Store := do
  let overlays ← fork.overlays s
  let utxoUpdates ← buildUtxoUpdates s.store overlays.utxo
  pure (s.store.applyReorg newTipHash
    (s.heightUpdates fork.ancestorHeight.toNat fork.connect).toList utxoUpdates
    (buildKernelUpdates s.store overlays.kernel))

/-- The record of one block of a reorganization. -/
def blockDelta (indexed : Hash256 × Block) : ReorgBlockDelta :=
  ⟨indexed.1, indexed.2.header.height, indexed.2.transactions⟩

/-- The record of a reorganization. -/
def Fork.delta (fork : Fork) : ReorgDelta where
  commonAncestorHeight := fork.ancestorHeight
  disconnectedBlocks := fork.disconnect.map blockDelta
  connectedBlocks := fork.connect.map blockDelta
  disconnectedTxs := fork.disconnect.flatMap (·.2.transactions)
  connectedTxs := fork.connect.flatMap (·.2.transactions)

/-- Everything a promotion does before it moves the tip. -/
def prepareReorg (s : ChainState) (newTipHash : Hash256) (now : Timestamp) :
    Result (BlockHeader × ReorgDelta × Store) := do
  let newTipHeader ← s.store.requireHeader newTipHash
    (.internal s!"reorg target header missing: {newTipHash.toHex}")
  let fork ← s.findFork newTipHash newTipHeader
  forEach (s.validateBranchBlock now) fork.connect
  let store ← fork.switch s newTipHash
  pure (newTipHeader, fork.delta, store)

/-- **Promote a stored branch that outranks the tip.** -/
def promoteHeavierKnownTip (s : ChainState) (newTipHash : Hash256) (now : Timestamp) :
    ChainState × Result ReorgDelta :=
  match s.prepareReorg newTipHash now with
  | .error e => (s, .error e)
  | .ok (header, delta, store) => (s.withTip store newTipHash header).pruned delta

/-! ## Connecting a block -/

/-- Store a valid block that does not extend the tip. -/
def storeSideBlock (s : ChainState) (block : Block) (blockHash : Hash256) : Result Store := do
  let headerBytes ← toBytes block.header
  let blockBodyBytes ← toBytes block
  s.store.storeKnownBlock blockHash headerBytes blockBodyBytes

/-- Connect a valid block that does not extend the tip. -/
def connectSide (s : ChainState) (block : Block) (blockHash : Hash256) (now : Timestamp) :
    ChainState × Result ConnectResult :=
  match s.storeSideBlock block blockHash with
  | .error e => (s, .error e)
  | .ok store =>
    match ({ s with store := store } : ChainState).pruned () with
    | (kept, .error e) => (kept, .error e)
    | (kept, .ok ()) =>
      if s.outranksTip block.header blockHash then
        match kept.promoteHeavierKnownTip blockHash now with
        | (promoted, .error e) => (promoted, .error e)
        | (promoted, .ok delta) => (promoted, .ok (.Reorg delta))
      else (kept, .ok .SideChain)

/-- The identifier of a block, if the block is new and passes all checks that do not depend on the
tip. -/
def admitBlock (s : ChainState) (block : Block) (now : Timestamp) : Result (Option Hash256) := do
  let headerBytes ← toBytes block.header
  let blockHash ← canonicalHeaderIdentifier s.networkMagic headerBytes
  if s.store.blocks.contains blockHash then pure none
  else do
    s.validateNewBlock block blockHash now
    let _ ← toBytes block
    pure (some blockHash)

/-- **Connect a block.** -/
def connectBlock (s : ChainState) (block : Block) (now : Timestamp) :
    ChainState × Result ConnectResult :=
  match s.admitBlock block now with
  | .error e => (s, .error e)
  | .ok none => (s, .ok .AlreadyHave)
  | .ok (some blockHash) =>
    if block.header.height = 0 ∨ block.header.prevHash = s.tipHash then
      s.connectDirect block blockHash
    else s.connectSide block blockHash now

/-! ## Starting -/

/-- The state at a tip. -/
def atTip (store : Store) (tipHash : Hash256) (tipHeight : BlockHeight) (tipDifficulty : U256)
    (genesisHash : Hash256) (networkMagic : UInt32) : ChainState where
  store := store
  tipHash := tipHash
  tipHeight := tipHeight
  tipDifficulty := tipDifficulty
  genesisHash := genesisHash
  networkMagic := networkMagic
  coinbaseMaturity := coinbaseMaturityForMagic networkMagic

/-! ## Creating the genesis block -/

/-- The changesets of a canonical genesis. -/
def genesisChangeset (canonical : CanonicalGenesis) :
    Result (List (Octets 33 × Bytes) × List (Octets 33) × List (Octets 33 × Hash256)) :=
  match canonical.block with
  | some block => .ok ((buildUtxoChangeset block).1, (buildUtxoChangeset block).2,
      extractKernelExcesses block canonical.hash)
  | none => do
    let _ ← validateMainnetGenesisIdentity canonical.blockBytes
    pure ([], [], [])

/-- Commit the canonical genesis of the network (`dom-node`). -/
def createGenesisBlock (s : ChainState) : Result ChainState := do
  let configured ← configuredGenesisHashForNetworkMagic s.networkMagic
  let canonical ← buildCanonicalGenesis s.networkMagic (deriveChainId s.networkMagic configured)
  rejectIf (canonical.hash ≠ configured) (.invalid
    (s!"canonical genesis identifier mismatch: configured {configured.toHex}, " ++
      s!"constructed {canonical.hash.toHex}"))
  let header ← fromBytes BlockHeader canonical.headerBytes
  let changeset ← genesisChangeset canonical
  let store ← s.store.commitBlock canonical.hash 0 canonical.headerBytes canonical.blockBytes
    changeset.1 changeset.2.1 changeset.2.2
  pure { s.withTip store canonical.hash header with tipHeight := 0 }

end ChainState

end DomProtocol
