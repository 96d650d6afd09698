import DomProtocol.Header
import DomProtocol.Roots

/-! # Transaction and block validation (`dom-consensus`)

The stateless rules a block body obeys: limits and structure of transactions, range proofs, kernel
signatures, fees and weights, the two balance equations, the coinbase value and the roots.
**`validateBlockForNetwork`** runs them all; **`BlockFacts`** collects what a success means for the
rest of the development, and `validateBlockForNetwork_facts` proves it.

Where the source aborts the process (`Transaction::weight` on a transaction beyond the count
limits) the model returns an internal error. -/

namespace DomProtocol

variable [Primitives]

/-- Context of transaction and block validation. -/
structure ValidationContext where
  currentHeight : BlockHeight
  chainId : Hash256
  now : Timestamp

/-- Demand that a check which may itself fail has answered yes. -/
def requireTrue (onFalse : DomError) (onError : DomError → DomError) :
    Result Bool → Result Unit
  | .ok true => .ok ()
  | .ok false => .error onFalse
  | .error e => .error (onError e)

omit [Primitives] in
theorem requireTrue_eq_ok {onFalse : DomError} {onError : DomError → DomError} {check : Result Bool}
    {u : Unit} : requireTrue onFalse onError check = .ok u ↔ check = .ok true := by
  rcases check with e | (_ | _) <;> simp [requireTrue]

/-! ## Outputs -/

namespace TransactionOutput

/-- The range proof in an output proof envelope. -/
def rangeProofBytes (output : TransactionOutput) : Result Bytes :=
  if output.proof.length = rangeProofSize then .ok output.proof
  else if output.proof.length = maxOutputProofEnvelopeSize then
    .ok (output.proof.take rangeProofSize)
  else .error (.invalid s!"noncanonical output proof envelope length {output.proof.length}")

/-- The recovery capsule in an output proof envelope, if there is one. -/
def recoveryCapsule (output : TransactionOutput) : Result (Option Bytes) :=
  if output.proof.length = rangeProofSize then .ok none
  else if output.proof.length = maxOutputProofEnvelopeSize then do
    let capsule ← recoveryCapsuleFromBytes (output.proof.drop rangeProofSize)
    pure (some capsule)
  else .error (.invalid s!"noncanonical output proof envelope length {output.proof.length}")

/-- Run the range-proof verifier that fits the envelope. -/
def verifyRange (output : TransactionOutput) (proof : Bytes) : Option Bytes → Result Bool
  | some capsule => rangeProofVerifyWithExtraCommit output.commitment.bytes proof capsule
  | none => rangeProofVerify output.commitment.bytes proof

/-- Check the range proof of an output. -/
def checkRangeProof (output : TransactionOutput) (failed : String) (error : String) :
    Result Unit := do
  let proof ← output.rangeProofBytes
  let capsule ← output.recoveryCapsule
  requireTrue (.invalid failed) (fun e => .invalid s!"{error}: {e.display}")
    (output.verifyRange proof capsule)

/-- **Accepted range proof**: the verifier that fits the envelope accepts it. -/
def RangeVerified (output : TransactionOutput) : Prop :=
  ∃ proof capsule, output.rangeProofBytes = .ok proof ∧ output.recoveryCapsule = .ok capsule ∧
    output.verifyRange proof capsule = .ok true

theorem checkRangeProof_eq_ok {output : TransactionOutput} {failed error : String} {u : Unit} :
    output.checkRangeProof failed error = .ok u ↔ output.RangeVerified := by
  simp only [checkRangeProof, bind_eq_ok, requireTrue_eq_ok, RangeVerified]
  exact ⟨fun ⟨proof, hp, capsule, hc, hv⟩ => ⟨proof, capsule, hp, hc, hv⟩,
    fun ⟨proof, capsule, hp, hc, hv⟩ => ⟨proof, hp, capsule, hc, hv⟩⟩

/-- An accepted envelope is within the decoder's limit. -/
theorem RangeVerified.length_le {output : TransactionOutput} (verified : output.RangeVerified) :
    output.proof.length ≤ maxOutputProofEnvelopeSize := by
  obtain ⟨proof, -, hproof, -, -⟩ := verified
  unfold rangeProofBytes at hproof
  split at hproof
  · rename_i hlen
    rw [hlen]
    decide
  · split at hproof
    · rename_i hlen
      exact hlen.le
    · cases hproof

end TransactionOutput

/-! ## Kernels -/

/-- Check that a kernel features octet is known. -/
def validateKernelFeatures (features : UInt8) : Result Unit :=
  rejectIf (¬ (features = kernelFeatPlain ∨ features = kernelFeatCoinbase ∨
    features = kernelFeatHeightLocked)) (.invalid
      s!"unknown kernel features 0x{hexNat 2 features.toNat}")

/-- Check the Schnorr signature under a kernel excess; the texts are those of the caller. -/
def checkKernelSignature (excess : Commitment) (signature : Octets 65) (chainId message : Hash256)
    (malformed badExcess invalid internal : String) : Result Unit := do
  let sig ← mapError (fun e => .invalid s!"{malformed}: {e.display}")
    (SchnorrSignature.fromBytes signature)
  let pk ← mapError (fun e => .invalid s!"{badExcess}: {e.display}")
    (PublicKey.fromCompressedBytes excess.bytes)
  requireTrue (.peerMisbehavior .InvalidSignature invalid)
    (fun e => match e with
      | .internal message => .internal s!"{internal}: {message}"
      | e => e)
    (schnorrVerify sig pk chainId message.toList)

/-- **Accepted kernel signature**: some parsed signature verifies under the excess. -/
def SignatureVerified (excess : Commitment) (signature : Octets 65) (chainId message : Hash256) :
    Prop :=
  ∃ sig pk, SchnorrSignature.fromBytes signature = .ok sig ∧
    PublicKey.fromCompressedBytes excess.bytes = .ok pk ∧
    schnorrVerify sig pk chainId message.toList = .ok true

theorem checkKernelSignature_eq_ok {excess : Commitment} {signature : Octets 65}
    {chainId message : Hash256} {malformed badExcess invalid internal : String} {u : Unit} :
    checkKernelSignature excess signature chainId message malformed badExcess invalid internal =
      .ok u ↔ SignatureVerified excess signature chainId message := by
  simp only [checkKernelSignature, bind_eq_ok, mapError_eq_ok, requireTrue_eq_ok,
    SignatureVerified]
  exact ⟨fun ⟨sig, hs, pk, hp, hv⟩ => ⟨sig, pk, hs, hp, hv⟩,
    fun ⟨sig, pk, hs, hp, hv⟩ => ⟨sig, hs, pk, hp, hv⟩⟩

/-- The message a transaction kernel signs. -/
def TransactionKernel.message (kernel : TransactionKernel) : Hash256 :=
  blake2b256Tagged tagKernelMsg
    ([kernel.features] ++ leBytes 8 kernel.fee.noms.toNat ++ leBytes 8 kernel.lockHeight.toNat)

/-- The message a coinbase kernel signs. -/
def CoinbaseKernel.message (kernel : CoinbaseKernel) : Hash256 :=
  blake2b256Tagged tagKernelMsgCoinbase
    ([kernel.features] ++ leBytes 8 kernel.explicitValue.toNat)

/-- Check the signatures of all kernels of a transaction. -/
def validateKernelSignatures (tx : Transaction) (chainId : Hash256) : Result Unit :=
  forEachIdx (fun i kernel => checkKernelSignature kernel.excess kernel.excessSignature chainId
    kernel.message s!"kernel {i} bad signature" s!"kernel {i} bad excess point"
    s!"kernel {i} Schnorr signature invalid" "kernel sig") tx.kernels

/-- Check that the coinbase value is the reward plus the fees. -/
def CoinbaseKernel.validateExplicitValue (kernel : CoinbaseKernel) (height : BlockHeight)
    (totalTxFees : UInt64) : Result Unit := do
  let reward := (blockReward height).noms
  let expected ← okOr (.invalid "coinbase value overflow") (checkedAdd reward totalTxFees)
  rejectIf (expected > maxProvableValue) (.invalid
    s!"coinbase expected value {expected} exceeds MAX_PROVABLE_VALUE {maxProvableValue}")
  rejectIf (kernel.explicitValue > maxProvableValue) (.invalid
    (s!"coinbase explicit_value {kernel.explicitValue} exceeds MAX_PROVABLE_VALUE " ++
      s!"{maxProvableValue}"))
  rejectIf (kernel.explicitValue ≠ expected) (.invalid
    (s!"coinbase explicit_value {kernel.explicitValue}: expected {expected} " ++
      s!"(reward={reward} + fees={totalTxFees})"))

/-- Validate a coinbase transaction. -/
def CoinbaseTransaction.validate (coinbase : CoinbaseTransaction) (height : BlockHeight)
    (totalTxFees : UInt64) (chainId : Hash256) : Result Unit := do
  rejectIf (coinbase.kernel.features ≠ kernelFeatCoinbase) (.invalid
    (s!"coinbase kernel features must be 0x{hexNat 2 kernelFeatCoinbase.toNat}, " ++
      s!"got 0x{hexNat 2 coinbase.kernel.features.toNat}"))
  rejectIf (coinbase.offset ≠ 0) (.invalid "coinbase offset must be zero")
  coinbase.kernel.validateExplicitValue height totalTxFees
  rejectIf (coinbase.output.proof = []) (.invalid "coinbase output has empty range proof")
  coinbase.output.checkRangeProof "coinbase range proof verification failed"
    "coinbase range proof error"
  checkKernelSignature coinbase.kernel.excess coinbase.kernel.excessSignature chainId
    coinbase.kernel.message "coinbase signature malformed" "coinbase excess invalid"
    "coinbase kernel signature invalid — miner does not prove ownership" "coinbase sig"

/-! ## Transactions -/

namespace Transaction

/-- Sum of the kernel fees. -/
def totalFee (tx : Transaction) : Result UInt64 :=
  tx.kernels.foldlM (fun acc kernel =>
    okOr (.invalid "fee sum overflow") (checkedAdd acc kernel.fee.noms)) 0

/-- Weight of a transaction within the count limits. -/
def weightChecked (tx : Transaction) : Result Nat := do
  rejectIf (tx.inputs.length > maxInputsPerTx) (.invalid
    s!"too many inputs for fee policy: {tx.inputs.length} > {maxInputsPerTx}")
  rejectIf (tx.outputs.length > maxOutputsPerTx) (.invalid
    s!"too many outputs for fee policy: {tx.outputs.length} > {maxOutputsPerTx}")
  rejectIf (tx.kernels.length > maxKernelsPerTx) (.invalid
    s!"too many kernels for fee policy: {tx.kernels.length} > {maxKernelsPerTx}")
  pure (tx.inputs.length * weightInput + tx.outputs.length * weightOutput +
    tx.kernels.length * weightKernel)

/-- Weight of a transaction; the source aborts where this is an internal error. -/
def weight (tx : Transaction) : Result Nat :=
  mapError (fun _ => .internal "deserialized transaction count limits keep weight in u32")
    tx.weightChecked

/-- Commitments a transaction spends. -/
def inputKeys (tx : Transaction) : List (Octets 33) := tx.inputs.map (·.commitment.bytes)

/-- Commitments a transaction creates. -/
def outputKeys (tx : Transaction) : List (Octets 33) := tx.outputs.map (·.commitment.bytes)

end Transaction

/-- Check the proof envelope of one output of a transaction. -/
def validateOutputEnvelope (i : Nat) (output : TransactionOutput) : Result Unit := do
  rejectIf (output.proof = []) (.invalid s!"output {i} has empty range proof")
  rejectIf (output.proof.length > maxOutputProofEnvelopeSize) (.invalid
    s!"output {i} proof envelope too large")

/-- Check features and lock height of one kernel of a transaction. -/
def validateKernelFields (i : Nat) (kernel : TransactionKernel) : Result Unit := do
  validateKernelFeatures kernel.features
  rejectIf (kernel.features = kernelFeatCoinbase) (.invalid
    s!"kernel {i}: COINBASE feature in non-coinbase transaction")
  rejectIf (kernel.features = kernelFeatHeightLocked ∧ kernel.lockHeight = 0) (.invalid
    s!"kernel {i}: HEIGHT_LOCKED with lock_height == 0")
  rejectIf (kernel.features ≠ kernelFeatHeightLocked ∧ kernel.lockHeight ≠ 0) (.invalid
    (s!"kernel {i}: lock_height must be 0 for non-HEIGHT_LOCKED kernels " ++
      s!"(got {kernel.lockHeight})"))

/-- Structural rules of a transaction. -/
def validateTransactionStructure (tx : Transaction) : Result Unit := do
  rejectIf (tx.inputs.length > maxInputsPerTx) (.invalid s!"too many inputs: {tx.inputs.length}")
  rejectIf (tx.outputs.length > maxOutputsPerTx) (.invalid
    s!"too many outputs: {tx.outputs.length}")
  rejectIf (tx.kernels.length > maxKernelsPerTx) (.invalid
    s!"too many kernels: {tx.kernels.length}")
  rejectIf (tx.kernels = []) (.invalid "transaction must have at least one kernel")
  forEachIdx validateOutputEnvelope tx.outputs
  forEachIdx validateKernelFields tx.kernels
  rejectIf (¬ tx.inputKeys.Nodup) (.invalid "duplicate input commitment")
  rejectIf (¬ tx.outputKeys.Nodup) (.invalid "duplicate output commitment")
  let _ ← tx.totalFee
  let w ← tx.weightChecked
  rejectIf (w > maxTxWeight) (.invalid s!"tx weight {w} > MAX_TX_WEIGHT {maxTxWeight}")

/-- Check that no kernel is still locked. -/
def validateLockHeights (tx : Transaction) (current : BlockHeight) : Result Unit :=
  forEach (fun kernel =>
    rejectIf (kernel.features = kernelFeatHeightLocked ∧ kernel.lockHeight > current)
      (.temporarilyInvalid
        s!"kernel locked until height {kernel.lockHeight}, current {current}")) tx.kernels

/-- Check the range proofs of all outputs. -/
def validateRangeProofs (tx : Transaction) : Result Unit :=
  forEachIdx (fun i output => output.checkRangeProof s!"output {i} range proof verification failed"
    s!"output {i} range proof error") tx.outputs

/-- Check the balance equation of a transaction. -/
def validateBalanceEquation (tx : Transaction) : Result Unit := do
  let totalFee ← tx.totalFee
  let valid ← verifyBalanceEquation (tx.outputs.map (·.commitment)) (tx.inputs.map (·.commitment))
    (tx.kernels.map (·.excess)) tx.offset totalFee
  rejectIf (valid = false) (.invalid "transaction balance equation does not hold")

/-- Validate a complete transaction. -/
def validateTransaction (tx : Transaction) (ctx : ValidationContext) : Result Unit := do
  validateTransactionStructure tx
  validateLockHeights tx ctx.currentHeight
  validateRangeProofs tx
  validateKernelSignatures tx ctx.chainId
  let _ ← tx.totalFee
  let w ← tx.weight
  rejectIf (w > maxTxWeight) (.invalid s!"tx weight {w} > MAX_TX_WEIGHT {maxTxWeight}")
  validateBalanceEquation tx

/-! ## Blocks -/

/-- Weight of one coinbase and the transactions of a block. -/
def blockWeight (transactions : List Transaction) : Result Nat :=
  transactions.foldlM (fun total tx => do
    let w ← tx.weight
    okOr (.invalid "block weight overflow")
      (if total + w < 2 ^ 32 then some (total + w) else none))
    (weightCoinbaseKernel + weightOutput)

namespace Block

/-- Sum of the fees of all transactions. -/
def totalFees (block : Block) : Result UInt64 :=
  block.transactions.foldlM (fun total tx => do
    let fee ← tx.totalFee
    okOr (.invalid "block fee overflow") (checkedAdd total fee)) 0

/-- Commitments a block spends. -/
def inputKeys (block : Block) : List (Octets 33) := block.transactions.flatMap (·.inputKeys)

/-- Commitments a block creates, the coinbase first. -/
def outputKeys (block : Block) : List (Octets 33) :=
  block.coinbase.output.commitment.bytes :: block.transactions.flatMap (·.outputKeys)

/-- All output commitments of a block. -/
def allOutputs (block : Block) : List Commitment :=
  block.coinbase.output.commitment :: block.transactions.flatMap (·.outputs.map (·.commitment))

/-- All input commitments of a block. -/
def allInputs (block : Block) : List Commitment :=
  block.transactions.flatMap (·.inputs.map (·.commitment))

/-- All kernel excesses of a block. -/
def allExcesses (block : Block) : List Commitment :=
  block.coinbase.kernel.excess :: block.transactions.flatMap (·.kernels.map (·.excess))

end Block

/-- Validate the transactions of a block and its coinbase. -/
def validateBlockTransactions (transactions : List Transaction) (coinbase : CoinbaseTransaction)
    (ctx : ValidationContext) (height : BlockHeight) (claimedTotalFees : UInt64) :
    Result Unit := do
  let totalBlockWeight ← blockWeight transactions
  let actualTotalFees ← transactions.zipIdx.foldlM (fun total indexed => do
    validateTransaction indexed.1 ctx
    let txFees ← mapError (fun e => .invalid s!"tx {indexed.2} fee error: {e.display}")
      indexed.1.totalFee
    okOr (.invalid "block total fees overflow") (checkedAdd total txFees)) 0
  rejectIf (totalBlockWeight > maxBlockWeight) (.invalid
    s!"block weight {totalBlockWeight} > MAX_BLOCK_WEIGHT {maxBlockWeight}")
  coinbase.validate height actualTotalFees ctx.chainId
  rejectIf (claimedTotalFees ≠ actualTotalFees) (.invalid
    s!"claimed fees {claimedTotalFees} != actual fees {actualTotalFees}")

/-- Validate a complete block under the rules of a network. -/
def validateBlockForNetwork (block : Block) (ctx : ValidationContext) (networkMagic : UInt32) :
    Result Unit := do
  validateHeaderSyntax block.header networkMagic
  let weight ← blockWeight block.transactions
  rejectIf (weight > maxBlockWeight) (.invalid
    s!"block weight {weight} > MAX_BLOCK_WEIGHT {maxBlockWeight}")
  rejectIf (block.transactions.length > maxBlockTxs) (.invalid
    s!"too many transactions: {block.transactions.length} > {maxBlockTxs}")
  rejectIf (¬ block.inputKeys.Nodup) (.invalid "duplicate input commitment across block")
  rejectIf (¬ block.outputKeys.Nodup) (.invalid "duplicate output commitment across block")
  rejectIf (block.inputKeys.any (· ∈ block.outputKeys) = true) (.invalid
    "block-level cut-through violation: input commitment matches a block output")
  let totalFees ← block.totalFees
  validateBlockTransactions block.transactions block.coinbase ctx block.header.height totalFees
  let valid ← verifyBlockBalanceEquation block.allOutputs block.allInputs block.allExcesses
    block.header.totalKernelOffset (blockReward block.header.height).noms
  rejectIf (valid = false) (.invalid "aggregate block balance equation does not hold")
  validatePmmrRoots block

/-! ## What a valid block satisfies -/

/-- **What validation establishes** about a block on a chain. -/
structure BlockFacts (block : Block) (chainId : Hash256) (networkMagic : UInt32) : Prop where
  syntaxChecked : validateHeaderSyntax block.header networkMagic = .ok ()
  inputsNodup : block.inputKeys.Nodup
  outputsNodup : block.outputKeys.Nodup
  cutThrough : ∀ key ∈ block.inputKeys, key ∉ block.outputKeys
  limits : block.WithinLimits
  coinbaseRange : block.coinbase.output.RangeVerified
  coinbaseSignature : SignatureVerified block.coinbase.kernel.excess
    block.coinbase.kernel.excessSignature chainId block.coinbase.kernel.message
  ranges : ∀ tx ∈ block.transactions, ∀ output ∈ tx.outputs, output.RangeVerified
  signatures : ∀ tx ∈ block.transactions, ∀ kernel ∈ tx.kernels,
    SignatureVerified kernel.excess kernel.excessSignature chainId kernel.message
  balance : verifyBlockBalanceEquation block.allOutputs block.allInputs block.allExcesses
    block.header.totalKernelOffset (blockReward block.header.height).noms = .ok true
  roots : validatePmmrRoots block = .ok ()

omit [Primitives] in
/-- A check passed by every item at its index is passed by every item. -/
theorem exists_index_of_forEachIdx {α : Type} {body : Nat → α → Result Unit} {items : List α}
    (passed : forEachIdx body items = .ok ()) {item : α} (mem : item ∈ items) :
    ∃ i, body i item = .ok () := by
  obtain ⟨i, hi⟩ := List.mem_iff_getElem?.mp mem
  exact ⟨i, forEachIdx_eq_ok.mp passed i item hi⟩

theorem withinLimits_of_validateTransactionStructure {tx : Transaction}
    (valid : validateTransactionStructure tx = .ok ()) : tx.WithinLimits := by
  simp only [validateTransactionStructure, bind_eq_ok, rejectIf_eq_ok, not_lt] at valid
  obtain ⟨-, hinputs, -, houtputs, -, hkernels, -, -, ⟨⟩, henvelopes, -⟩ := valid
  refine ⟨hinputs, houtputs, hkernels, fun output hmem => ?_⟩
  obtain ⟨i, hi⟩ := exists_index_of_forEachIdx henvelopes hmem
  simp only [validateOutputEnvelope, bind_eq_ok, rejectIf_eq_ok, not_lt] at hi
  exact hi.choose_spec.2

/-- What transaction validation establishes. -/
theorem validateTransaction_facts {tx : Transaction} {ctx : ValidationContext}
    (valid : validateTransaction tx ctx = .ok ()) :
    tx.WithinLimits ∧ (∀ output ∈ tx.outputs, output.RangeVerified) ∧
      ∀ kernel ∈ tx.kernels,
        SignatureVerified kernel.excess kernel.excessSignature ctx.chainId kernel.message := by
  simp only [validateTransaction, bind_eq_ok] at valid
  obtain ⟨⟨⟩, hstructure, -, -, ⟨⟩, hranges, ⟨⟩, hsignatures, -⟩ := valid
  refine ⟨withinLimits_of_validateTransactionStructure hstructure, fun output hmem => ?_,
    fun kernel hmem => ?_⟩
  · obtain ⟨i, hi⟩ := exists_index_of_forEachIdx hranges hmem
    exact TransactionOutput.checkRangeProof_eq_ok.mp hi
  · obtain ⟨i, hi⟩ := exists_index_of_forEachIdx hsignatures hmem
    exact checkKernelSignature_eq_ok.mp hi

/-- **A valid block satisfies `BlockFacts`.** -/
theorem validateBlockForNetwork_facts {block : Block} {ctx : ValidationContext}
    {networkMagic : UInt32} (valid : validateBlockForNetwork block ctx networkMagic = .ok ()) :
    BlockFacts block ctx.chainId networkMagic := by
  simp only [validateBlockForNetwork, bind_eq_ok, rejectIf_eq_ok, not_not, not_lt,
    List.any_eq_true, decide_eq_true_eq, not_exists, not_and] at valid
  obtain ⟨⟨⟩, hsyntax, -, -, -, -, -, hcount, -, hinputs, -, houtputs, -, hcut, fees, -, ⟨⟩, htxs,
    balance, hbalance, -, htrue, hroots⟩ := valid
  simp only [validateBlockTransactions, bind_eq_ok, rejectIf_eq_ok] at htxs
  obtain ⟨-, -, total, hloop, -, -, ⟨⟩, hcoinbase, -⟩ := htxs
  simp only [CoinbaseTransaction.validate, bind_eq_ok, rejectIf_eq_ok, not_not] at hcoinbase
  obtain ⟨-, hfeatures, -, -, -, -, -, -, ⟨⟩, hrange, hsignature⟩ := hcoinbase
  have hcoinbaseRange := TransactionOutput.checkRangeProof_eq_ok.mp hrange
  have htx : ∀ tx ∈ block.transactions, validateTransaction tx ctx = .ok () := by
    intro tx hmem
    obtain ⟨i, hi⟩ := List.mem_iff_getElem?.mp hmem
    obtain ⟨acc, acc', hstep⟩ := foldlM_each hloop (tx, i) (List.mem_zipIdx_iff_getElem?.mpr hi)
    rw [bind_eq_ok] at hstep
    exact hstep.choose_spec.1
  have htrue' : balance = true := by simpa using htrue
  exact
    { syntaxChecked := hsyntax
      inputsNodup := hinputs
      outputsNodup := houtputs
      cutThrough := hcut
      limits :=
        ⟨⟨hcoinbaseRange.length_le, hfeatures⟩, hcount,
          fun tx hmem => (validateTransaction_facts (htx tx hmem)).1⟩
      coinbaseRange := hcoinbaseRange
      coinbaseSignature := checkKernelSignature_eq_ok.mp hsignature
      ranges := fun tx hmem => (validateTransaction_facts (htx tx hmem)).2.1
      signatures := fun tx hmem => (validateTransaction_facts (htx tx hmem)).2.2
      balance := by rw [hbalance, htrue']
      roots := hroots }

end DomProtocol
