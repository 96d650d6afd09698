import DomProtocol.DomWallet.Journal

/-! # Wallet operations

The operations of a wallet that lives in a wallet directory, as actions over its **`Drive`**: the
directory holds the encrypted state and the journal, and an operation appends to the journal, replays
it and saves the state. What an operation did to the wallet in memory before it failed stays done.

The drive remembers the contents it has gone through (`Drive.passed`): a process that stops in the
middle of an operation leaves one of them behind. -/

namespace DomProtocol.DomWallet

open Primitives

/-! ## The wallet directory -/

/-- The contents of a wallet directory. -/
structure Disk where
  journal : List JournalEntry
  saved : WalletState
  deriving DecidableEq

/-- **The directory and its history**: the contents, and all contents since the wallet was opened. -/
structure Drive where
  disk : Disk
  passed : List Disk
  deriving DecidableEq

/-- What a wallet does to its directory. -/
inductive DiskOp where
  | append (entry : JournalEntry)
  | replay
  | save (state : WalletState)

/-- The directory as a store. -/
def DiskPort : Interface where
  Op := DiskOp
  Reply
    | .append _ => Unit
    | .replay => Records
    | .save _ => Unit

/-- The directory with new contents. -/
def Drive.write (drive : Drive) (disk : Disk) : Drive := ⟨disk, drive.passed ++ [disk]⟩

/-- The directory with one more journal entry. -/
def Drive.append (drive : Drive) (entry : JournalEntry) : Drive :=
  drive.write { drive.disk with journal := drive.disk.journal ++ [entry] }

/-- The directory with another saved state. -/
def Drive.save (drive : Drive) (state : WalletState) : Drive :=
  drive.write { drive.disk with saved := state }

/-- The records of the journal. -/
def Drive.records (drive : Drive) : Records := replay drive.disk.journal

/-- Carry out an operation on the directory. -/
def Drive.exec : (op : DiskPort.Op) → Drive → DiskPort.Reply op × Drive
  | .append entry, drive => ((), drive.append entry)
  | .replay, drive => (drive.records, drive)
  | .save state, drive => ((), drive.save state)

/-- An operation of the wallet. -/
abbrev WalletAct (α : Type) := Act DiskPort Wallet WalletError α

/-! ## What operations work with -/

/-- A transaction the wallet has built and not yet reserved. -/
structure BuiltSpend where
  txHash : Hash256
  txBytes : Bytes
  selectedCommitments : List (Octets 33)
  pendingChange : Option PendingChange
  deriving DecidableEq

/-- The pending entry of a built transaction. -/
def BuiltSpend.pending (built : BuiltSpend) : PendingTx where
  txHash := built.txHash
  inputs := built.selectedCommitments
  txBytes := built.txBytes
  change := built.pendingChange
  receiveSlate := none
  receiveSlateSecrets := none

/-- The event of a built transaction. -/
def BuiltSpend.event (built : BuiltSpend) : TxJournalEvent :=
  .built built.selectedCommitments (some built.txBytes) built.pendingChange

/-- The output of an answered slate. -/
structure PendingReceiveCandidate where
  txHash : Hash256
  commitment : Octets 33
  amount : UInt64
  blinding : Octets 32

/-- The output a confirmed slate brings. -/
def PendingReceiveCandidate.output (receive : PendingReceiveCandidate) (blockHeight : Nat)
    (blockHash : Option Hash256) : OwnedOutput :=
  .new receive.commitment receive.amount receive.blinding blockHeight false blockHash

/-- The event of a confirmed slate. -/
def PendingReceiveCandidate.event (receive : PendingReceiveCandidate) (blockHeight : Nat)
    (blockHash : Option Hash256) : TxJournalEvent :=
  .receiveConfirmed receive.commitment receive.amount blockHeight blockHash receive.txHash

/-- What a spend draws at random. -/
structure Draws where
  changeBlinding : Octets 32
  offset : Octets 32

/-- What a scan shows of a block. -/
structure ScanBlock where
  height : Nat
  blockHash : Option Hash256
  outputCommitments : List (Octets 33)
  inputCommitments : List (Octets 33)
  totalFeesNoms : UInt64

/-- A source of canonical blocks. -/
structure ChainScanSource where
  tipHeight : Nat
  blockAt : Nat → Except String (Option ScanBlock)

/-- Whether a rescan writes its result. -/
inductive WalletRescanMode where
  | compareOnly
  | repair
  deriving DecidableEq

namespace Wallet

/-- The session of an unlocked wallet. -/
def requireSession : WalletAct String := do
  let w ← Act.get
  Act.lift (okOr .locked w.session)

/-- Save the wallet. -/
def save : WalletAct Unit := do
  let _ ← requireSession
  let w ← Act.get
  Act.perform (I := DiskPort) (.save w.toWalletState)

/-- Append an event to the journal. -/
def recordJournal (txHash : Hash256) (event : TxJournalEvent) : WalletAct Unit :=
  Act.perform (I := DiskPort) (.append ⟨txHash, event⟩)

/-- Replay the journal. -/
def replayJournal : WalletAct Records := Act.perform (I := DiskPort) .replay

/-- The wallet with other outputs. -/
def withOutputs (w : Wallet) (outputs : OutputIndex) : Wallet := { w with outputs := outputs }

/-- Change the outputs, or fail. -/
def onOutputs (f : OutputIndex → Except WalletError OutputIndex) : WalletAct Unit := do
  let w ← Act.get
  let outputs ← Act.lift (f w.outputs)
  Act.modify (withOutputs · outputs)

/-- Enter a pending transaction. -/
def insertPending (pending : PendingTx) (w : Wallet) : Wallet :=
  { w with pendingTxs := w.pendingTxs.insert pending.txHash pending }

/-- Drop a pending transaction. -/
def removePending (txHash : Hash256) (w : Wallet) : Wallet :=
  { w with pendingTxs := w.pendingTxs.erase txHash }

/-- Add an output. -/
def addOutput (output : OwnedOutput) (w : Wallet) : Wallet :=
  w.withOutputs (w.outputs.insert output.commitment output)

/-- Add an output unless its commitment is there. -/
def registerOutput (output : OwnedOutput) (w : Wallet) : Wallet :=
  match w.outputs[output.commitment]? with
  | some _ => w
  | none => w.addOutput output

/-- The output a confirmed spend returns. -/
def changeOutput (change : PendingChange) (blockHeight : Nat) (blockHash : Option Hash256) :
    OwnedOutput :=
  .new change.commitment change.value change.blinding blockHeight false blockHash

/-- Register the change of a confirmed spend, if it has any. -/
def registerPendingChange (change : Option PendingChange) (blockHeight : Nat)
    (blockHash : Option Hash256) (w : Wallet) : Wallet :=
  match change with
  | some c => w.registerOutput (changeOutput c blockHeight blockHash)
  | none => w

/-! ## Spends -/

/-- Reserve the inputs of a built transaction and track it. -/
def reserveBuiltSpend (built : BuiltSpend) : WalletAct Unit := do
  recordJournal built.txHash built.event
  Act.forEach (fun commitment => onOutputs (OutputIndex.reserve commitment built.txHash))
    built.selectedCommitments
  Act.modify (insertPending built.pending)
  save

/-- The error for a transaction the wallet does not track. -/
def pendingTxNotFound : WalletError := .io "pending tx not found"

/-- The tracked transaction with a hash. -/
def trackedTx (txHash : Hash256) : WalletAct PendingTx := do
  let w ← Act.get
  Act.lift (okOr pendingTxNotFound w.pendingTxs[txHash]?)

/-- Record that a transaction was handed to a node. -/
def markSubmitted (txHash : Hash256) : WalletAct Unit := do
  let _ ← trackedTx txHash
  recordJournal txHash .submitted

/-- Record that a submission failed. -/
def markFailed (txHash : Hash256) (reason : String) : WalletAct Unit := do
  let _ ← trackedTx txHash
  recordJournal txHash (.failed reason)

/-- Cancel a pending transaction. -/
def cancelTx (txHash : Hash256) : WalletAct Unit := do
  let pending ← trackedTx txHash
  recordJournal txHash .canceled
  Act.forEach (fun commitment => onOutputs (OutputIndex.releaseReservation commitment))
    pending.inputs
  Act.modify (removePending txHash)
  save

/-! ## Slates the wallet has answered -/

/-- Whether the journal knows a slate as received. -/
def isReceived (records : Records) (txHash : Hash256) : Bool :=
  match records[txHash]? with
  | none => false
  | some record =>
    match record.status with
    | .received .. => true
    | _ => false

/-- Record that the output of an answered slate is on the chain, unless the journal has it. -/
def recordReceiveConfirmedIfNeeded (receive : PendingReceiveCandidate) (blockHeight : Nat)
    (blockHash : Option Hash256) : WalletAct Unit := do
  let records ← replayJournal
  if isReceived records receive.txHash then pure ()
  else recordJournal receive.txHash (receive.event blockHeight blockHash)

variable [Primitives] [WalletBackend]

open WalletBackend

/-- Hexadecimal form of a transaction hash. -/
def txHashHex (txHash : Hash256) : String := txHash.toHex

/-- The candidate of one pending entry, if it is an answered slate. -/
def receiveCandidate (chainId : Hash256) (entry : Hash256 × PendingTx) :
    Except WalletError (Option PendingReceiveCandidate) :=
  match entry.2.receiveSlate with
  | none => .ok none
  | some slateBytes => do
    let hex := txHashHex entry.1
    let blinding ← okOr (.crypto
      s!"pending receive slate {hex} is missing recipient secrets") entry.2.receiveSlateSecrets
    let slate ← mapError (fun e => .crypto
      s!"pending receive slate {hex} failed to decode: {e}") (slateFromBytes slateBytes)
    rejectIf (slate.chainId ≠ chainId) (.crypto
      s!"pending receive slate {hex} chain_id does not match wallet")
    let _ ← mapError (fun e => .crypto
      (s!"pending receive slate {hex} has invalid amount: " ++ e.display))
      (Amount.fromNoms slate.amount)
    let recipientOutput ← okOr (.crypto
      s!"pending receive slate {hex} is missing recipient output") slate.recipientOutput
    rejectIf (isScalarValid blinding = false) (.dom (.invalid "invalid blinding factor"))
    rejectIf (commitBytes slate.amount blinding ≠ recipientOutput) (.crypto
      s!"pending receive slate {hex} commitment does not match stored recipient blinding")
    pure (some ⟨entry.1, recipientOutput, slate.amount, blinding⟩)

/-- The outputs of the answered slates, by transaction hash. -/
def pendingReceiveCandidates (w : Wallet) : Except WalletError (List PendingReceiveCandidate) := do
  let candidates ← w.pendingTxs.toList.mapM (receiveCandidate w.chainId)
  pure (candidates.filterMap id)

/-! ## Deterministic outputs -/

/-- A blinding factor that is a nonzero scalar. -/
def blindingFactor (bytes : Octets 32) : Except WalletError (Octets 32) := do
  rejectIf (isScalarValid bytes = false) (.crypto "blinding from bytes: invalid scalar")
  pure bytes

/-- The coinbase blinding factor of a height: from the seed, or for a legacy wallet from the
password. -/
def coinbaseBlindingForHeight (w : Wallet) (height : Nat) (password : String) :
    Except WalletError (Octets 32) :=
  match w.keychain.seedBytes with
  | some seed => do
    let bytes ← coinbaseBlinding seed height
    blindingFactor bytes
  | none =>
    let passwordSeed := blake2b256Tagged "DOM:wallet-coinbase-seed:v1" (tagOctets password)
    blindingFactor (blake2b256Tagged "DOM:coinbase-blinding:v1"
      (passwordSeed.toList ++ leBytes 8 height))

/-- The blinding factor of a receive request. -/
def receiveBlindingForIndex (w : Wallet) (index : UInt32) : Except WalletError (Octets 32) := do
  let seed ← okOr (.crypto "wallet has no deterministic seed") w.keychain.seedBytes
  let bytes ← spendOutputBlinding seed w.keychain.account index
  blindingFactor bytes

/-- The subsidy of a height. -/
def rewardAt (height : Nat) : UInt64 := (blockReward (UInt64.ofNat height)).noms

/-! ## Building -/

/-- The sum of two amounts, at most the largest one. -/
def saturatingAdd (a b : UInt64) : UInt64 := (checkedAdd a b).getD (2 ^ 64 - 1)

/-- Build the transaction that spends the selected outputs; what exceeds the amount and the fee goes
to a change output with a random blinding factor. -/
def assembleSpend (draws : Draws) (recipientBlinding : Octets 32) (amount fee : UInt64) (w : Wallet)
    (selected : List OwnedOutput) : Except WalletError BuiltSpend := do
  let required := saturatingAdd amount fee
  let totalSelected := (selected.map (·.value)).sum
  let changeValue := saturatingSub totalSelected required
  let pendingChange := if changeValue > 0 then some (PendingChange.mk
    (commitBytes changeValue draws.changeBlinding) changeValue draws.changeBlinding) else none
  let changeOutputs := pendingChange.toList.map fun change => (change.value, change.blinding)
  let tx ← buildTransaction w.chainId selected ((amount, recipientBlinding) :: changeOutputs) fee
    draws.offset
  let txBytes ← mapError .dom (toBytes tx)
  pure ⟨blake2b256 txBytes, txBytes, selected.map (·.commitment), pendingChange⟩

/-- Select coins and build a transaction, without touching the wallet. -/
def buildSpendUnreserved (order : IterOrder OwnedOutput) (draws : Draws)
    (recipientBlinding : Octets 32) (amount fee : UInt64) (currentHeight : Nat) (w : Wallet) :
    Except WalletError BuiltSpend := do
  let selected ← OutputIndex.selectForSpendWithMaturity order w.outputs (saturatingAdd amount fee)
    currentHeight w.network.coinbaseMaturity
  w.assembleSpend draws recipientBlinding amount fee selected

/-- Build a transaction and reserve its inputs. -/
def buildSpend (order : IterOrder OwnedOutput) (draws : Draws) (recipientBlinding : Octets 32)
    (amount fee : UInt64) (currentHeight : Nat) : WalletAct BuiltSpend := do
  let w ← Act.get
  let built ← Act.lift
    (w.buildSpendUnreserved order draws recipientBlinding amount fee currentHeight)
  reserveBuiltSpend built
  pure built

/-- Record the coinbase output of a block the wallet is about to mine. -/
def buildCoinbase (height : Nat) (totalTxFees : UInt64) : WalletAct OwnedOutput := do
  let password ← requireSession
  let w ← Act.get
  let explicitValue ← Act.lift (okOr
    (.crypto "coinbase value overflow (reward + fees > u64::MAX)")
    (checkedAdd (rewardAt height) totalTxFees))
  let blinding ← Act.lift (w.coinbaseBlindingForHeight height password)
  let owned := OwnedOutput.new (commitBytes explicitValue blinding) explicitValue blinding height
    true none
  Act.modify (addOutput owned)
  let _ ← Act.attempt save
  pure owned

/-! ## Blocks -/

/-- Sum of the fees of the transactions, if they have one. -/
def scanFees (transactions : List Transaction) : Option UInt64 :=
  transactions.foldlM (fun acc tx =>
    match tx.totalFee with
    | .ok fee => checkedAdd acc fee
    | .error _ => none) 0

/-- The value under which a commitment is the coinbase of a height: the subsidy, or the subsidy and
the fees. -/
def matchedValue (blinding : Octets 32) (height : Nat) (totalFees : Option UInt64)
    (commitment : Octets 33) : Option UInt64 :=
  let reward := rewardAt height
  let rewardWithFees := totalFees.bind (checkedAdd reward)
  ([some reward, rewardWithFees].filterMap id).find? fun value =>
    commitBytes value blinding = commitment

/-- Look for the wallet's coinbase among the outputs of a block; a locked wallet skips it. -/
def scanBlockWithHash (transactions : List Transaction) (blockHeight : Nat)
    (blockHash : Option Hash256) (w : Wallet) : Wallet :=
  match w.session with
  | none => w
  | some password =>
    match w.coinbaseBlindingForHeight blockHeight password with
    | .error _ => w
    | .ok blinding =>
      (transactions.flatMap (·.outputKeys)).foldl (fun w commitment =>
        match w.outputs[commitment]? with
        | some _ => w
        | none =>
          match matchedValue blinding blockHeight (scanFees transactions) commitment with
          | some value => w.addOutput (.new commitment value blinding blockHeight true blockHash)
          | none => w) w

/-- Mark an input of a pending transaction as spent if a block consumed it. -/
def spendIfConsumed (consumedInputs : List (Octets 33)) (commitment : Octets 33) : WalletAct Unit :=
  if commitment ∈ consumedInputs then onOutputs (OutputIndex.markSpent commitment) else pure ()

/-- Settle one input of a pending transaction that a block has resolved. -/
def settleInput (consumedInputs : List (Octets 33)) (commitment : Octets 33) : WalletAct Unit := do
  spendIfConsumed consumedInputs commitment
  onOutputs (OutputIndex.releaseReservation commitment)

/-- Resolve a pending transaction a block has consumed an input of. -/
def resolvePending (consumedInputs : List (Octets 33)) (blockHeight : Nat)
    (blockHash : Option Hash256) (txHash : Hash256) : WalletAct Unit := do
  recordJournal txHash (.confirmed blockHeight)
  let w ← Act.get
  match w.pendingTxs[txHash]? with
  | none => pure ()
  | some pending => do
    Act.modify (removePending txHash)
    Act.forEach (settleInput consumedInputs) pending.inputs
    Act.modify (registerPendingChange pending.change blockHeight blockHash)

/-- Settle an answered slate whose output is in a block. -/
def settleReceive (blockHeight : Nat) (blockHash : Option Hash256)
    (receive : PendingReceiveCandidate) : WalletAct Unit := do
  recordReceiveConfirmedIfNeeded receive blockHeight blockHash
  Act.modify (removePending receive.txHash)
  Act.modify (registerOutput (receive.output blockHeight blockHash))

/-- The pending transactions that share an input with a block. -/
def resolvedBy (consumedInputs : List (Octets 33)) (w : Wallet) : List Hash256 :=
  (w.pendingTxs.toList.filter fun entry =>
    entry.2.inputs.any fun commitment => consumedInputs.contains commitment).map Prod.fst

/-- The answered slates whose output is among the created ones. -/
def confirmedReceives (createdOutputs : List (Octets 33)) (w : Wallet) :
    Except WalletError (List PendingReceiveCandidate) := do
  if createdOutputs = [] then pure []
  else do
    let candidates ← w.pendingReceiveCandidates
    pure (candidates.filter fun receive => createdOutputs.contains receive.commitment)

/-- **Apply a canonical block.** -/
def applyCanonicalBlockWithHash (order : IterOrder Hash256) (transactions : List Transaction)
    (blockHeight : Nat) (blockHash : Option Hash256) : WalletAct Unit := do
  let consumedInputs := transactions.flatMap (·.inputKeys)
  let createdOutputs := transactions.flatMap (·.outputKeys)
  let w ← Act.get
  Act.forEach (resolvePending consumedInputs blockHeight blockHash)
    (order.arrange (w.resolvedBy consumedInputs))
  let w ← Act.get
  let receives ← Act.lift (w.confirmedReceives createdOutputs)
  Act.forEach (settleReceive blockHeight blockHash) receives
  Act.modify (scanBlockWithHash transactions blockHeight blockHash)
  save

/-! ## Rescan -/

/-- What a rescan has found so far. -/
structure Rebuilt where
  outputs : OutputIndex
  canonicalInputs : List (Octets 33)
  detectedReceives : Table (Octets 33) ReceiveRequestStatus
  confirmedReceives : Table Hash256 (PendingReceiveCandidate × Nat × Option Hash256)

/-- The value under which a commitment is the coinbase of a block; a worthless one is skipped. -/
def rescanValue (blinding : Octets 32) (reward rewardWithFees : UInt64) (commitment : Octets 33) :
    Option UInt64 :=
  [reward, rewardWithFees].find? fun value =>
    decide (value ≠ 0) && decide (commitBytes value blinding = commitment)

/-- Find the wallet's coinbase among the outputs of a block. -/
def rescanCoinbase (blinding : Octets 32) (rewardWithFees : UInt64) (block : ScanBlock)
    (outputs : OutputIndex) : OutputIndex :=
  block.outputCommitments.foldl (fun outputs commitment =>
    match rescanValue blinding (rewardAt block.height) rewardWithFees commitment with
    | some value => outputs.insert commitment
        (.new commitment value blinding block.height true block.blockHash)
    | none => outputs) outputs

/-- Find a receive request among the outputs of a block. -/
def rescanRequest (w : Wallet) (block : ScanBlock) (rebuilt : Rebuilt) (request : ReceiveRequest) :
    Except WalletError Rebuilt :=
  if block.outputCommitments.contains request.commitment then do
    let blinding ← w.receiveBlindingForIndex request.index
    pure { rebuilt with
      outputs := rebuilt.outputs.insert request.commitment
        (.new request.commitment request.amount blinding block.height false block.blockHash)
      detectedReceives := rebuilt.detectedReceives.insert request.commitment
        (.detected block.height false true) }
  else .ok rebuilt

/-- Find an answered slate among the outputs of a block. -/
def rescanReceive (block : ScanBlock) (rebuilt : Rebuilt) (receive : PendingReceiveCandidate) :
    Rebuilt :=
  if block.outputCommitments.contains receive.commitment then
    { rebuilt with
      outputs := rebuilt.outputs.insert receive.commitment
        (receive.output block.height block.blockHash)
      confirmedReceives := rebuilt.confirmedReceives.insert receive.txHash
        (receive, block.height, block.blockHash) }
  else rebuilt

/-- Scan one block. -/
def rescanBlock (w : Wallet) (password : String) (receives : List PendingReceiveCandidate)
    (rebuilt : Rebuilt) (block : ScanBlock) : Except WalletError Rebuilt := do
  let blinding ← w.coinbaseBlindingForHeight block.height password
  let rewardWithFees ← okOr (.crypto "coinbase value overflow")
    (checkedAdd (rewardAt block.height) block.totalFeesNoms)
  let rebuilt := { rebuilt with
    canonicalInputs := rebuilt.canonicalInputs ++ block.inputCommitments
    outputs := rescanCoinbase blinding rewardWithFees block rebuilt.outputs }
  let rebuilt ← w.receiveRequests.foldlM (w.rescanRequest block) rebuilt
  pure (receives.foldl (rescanReceive block) rebuilt)

/-- Fetch the block of a height; a source may have none. -/
def fetchBlock (scan : ChainScanSource) (height : Nat) : Except WalletError (Option ScanBlock) := do
  let block ← mapError .io (scan.blockAt height)
  match block with
  | none => pure none
  | some block => do
    rejectIf (block.height ≠ height) (.io
      s!"canonical rescan source returned height {block.height} for requested {height}")
    pure (some block)

/-- Scan the block of one height. -/
def rescanHeight (w : Wallet) (password : String) (receives : List PendingReceiveCandidate)
    (scan : ChainScanSource) (rebuilt : Rebuilt) (height : Nat) : Except WalletError Rebuilt := do
  let block ← fetchBlock scan height
  match block with
  | none => pure rebuilt
  | some block => w.rescanBlock password receives rebuilt block

/-- Mark what the chain consumed. -/
def spendCanonical (rebuilt : Rebuilt) : OutputIndex :=
  Table.updateAll (fun _ output => { output with spent := true, reservedForTx := none })
    rebuilt.canonicalInputs rebuilt.outputs

/-- Whether a pending transaction still has all its inputs, unspent. -/
def pendingSurvives (confirmed : Table Hash256 (PendingReceiveCandidate × Nat × Option Hash256))
    (outputs : OutputIndex) (entry : Hash256 × PendingTx) : Bool :=
  !confirmed.contains entry.1 && entry.2.inputs.all fun commitment =>
    match outputs[commitment]? with
    | some output => !output.spent
    | none => false

/-- Keep a pending transaction that survives, with its reservations. -/
def keepPending (confirmed : Table Hash256 (PendingReceiveCandidate × Nat × Option Hash256))
    (acc : OutputIndex × Table Hash256 PendingTx) (entry : Hash256 × PendingTx) :
    Except WalletError (OutputIndex × Table Hash256 PendingTx) :=
  if pendingSurvives confirmed acc.1 entry then do
    let outputs ← entry.2.inputs.foldlM (fun outputs commitment =>
      OutputIndex.reserve commitment entry.1 outputs) acc.1
    pure (outputs, acc.2.insert entry.1 entry.2)
  else .ok acc

/-- The status of a receive request after a rescan. -/
def rescannedStatus (maturity scannedTip : Nat) (rebuilt : Rebuilt) (request : ReceiveRequest) :
    ReceiveRequest :=
  { request with
    status :=
      match rebuilt.detectedReceives[request.commitment]? with
      | some (.detected blockHeight isCoinbase _) => .detected blockHeight isCoinbase
          (!isCoinbase || decide (blockHeight + maturity ≤ scannedTip))
      | some .pending => .pending
      | none => .pending }

/-- **Rebuild the wallet from the canonical chain.** -/
def rescanCanonicalChain (order : IterOrder (Hash256 × PendingTx)) (scan : ChainScanSource)
    (mode : WalletRescanMode) : WalletAct Unit := do
  let password ← requireSession
  let w ← Act.get
  let receives ← Act.lift w.pendingReceiveCandidates
  let rebuilt ← Act.lift ((List.range (scan.tipHeight + 1)).foldlM
    (w.rescanHeight password receives scan) ⟨∅, [], ∅, ∅⟩)
  let (outputs, pendingTxs) ← Act.lift ((order.arrange w.pendingTxs.toList).foldlM
    (keepPending rebuilt.confirmedReceives) (spendCanonical rebuilt, ∅))
  let receiveRequests := w.receiveRequests.map
    (rescannedStatus w.network.coinbaseMaturity scan.tipHeight rebuilt)
  match mode with
  | .compareOnly => pure ()
  | .repair => do
    Act.forEach (fun entry => recordReceiveConfirmedIfNeeded entry.1 entry.2.1 entry.2.2)
      (rebuilt.confirmedReceives.toList.map Prod.snd)
    Act.modify fun w =>
      { w with outputs := outputs, pendingTxs := pendingTxs, receiveRequests := receiveRequests }
    save

end Wallet

end DomProtocol.DomWallet
