import DomProtocol.Validation

/-! # Genesis and block identifiers (`dom-chain::genesis`)

A block is identified by the hash of its header (**`computeBlockHash`**), except that the mainnet
genesis is identified by the tagged hash of an envelope around its header. Testnet and regtest have
an ordinary canonical genesis block with a coinbase; the mainnet genesis has an empty economic body
and an inscription, and is stored as its envelope.

The prover and the signer behind the canonical coinbase are third-party primitives. -/

namespace DomProtocol

/-! ## Configured constants -/

def genesisMessage : String := "Not a store of value. A means of exchange."
def genesisNonceMainnet : UInt64 := 7150
def genesisNonceRegtest : UInt64 := 0

def genesisPowDigestMainnet : Hash256 :=
  0x000003bda0b141656e3a086fbb2e018321ed2611c9d5a723bf9b85cce9baf3ab

def genesisPowDigestRegtest : Hash256 := 0x965de1ca3cdb8226dd387ea2a875b64d

def genesisHashMainnet : Hash256 :=
  0x182e10af28e7ec072f462e6044f580dc9dd8c866cb78dfc293bbfaee4e9325ce

def genesisHashTestnet : Hash256 :=
  0x2ab5e6c73607e8bfbbec2d4ce3ea1419cda29ae6892e7f1c24facc465cd65821

def genesisHashRegtest : Hash256 :=
  0xfdda027e4a46dd366717c6e0a976bf3e0a7512c5edf08470b0dca99ddee3fe1f

/-- The historical context the regtest genesis coinbase is signed in. -/
def regtestGenesisSigningContext : Hash256 :=
  0x473d3be0c797556bee04a1ddc77f13bbd43e92daeccadc34d4a5a9f2d3e61beb

def maxGenesisInscriptionBytes : Nat := 256

/-- The genesis hash configured for a network. -/
def configuredGenesisHashForNetworkMagic (networkMagic : UInt32) : Result Hash256 :=
  if networkMagic = networkMagicMainnet then .ok genesisHashMainnet
  else if networkMagic = networkMagicTestnet then .ok genesisHashTestnet
  else if networkMagic = networkMagicRegtest then .ok genesisHashRegtest
  else .error (.invalid
    s!"unknown network magic 0x{hexNat 8 networkMagic.toNat} for genesis hash")

/-- The four zero counts of an empty economic body. -/
def emptyBodyBytes : Bytes := List.replicate 16 0

variable [Primitives]

open Primitives

/-! ## The mainnet identity envelope -/

/-- Canonical octets of an inscription. -/
def inscriptionBytes (payload : Bytes) : Bytes := [1] ++ beBytes 2 payload.length ++ payload

/-- Commitment to an inscription. -/
def inscriptionCommitment (payload : Bytes) : Hash256 :=
  blake2b256Tagged tagGenesisInscription (inscriptionBytes payload)

/-- The root over no leaves. -/
def emptyRoot : Hash256 := blake2b256Tagged tagPmmrEmpty []

/-- Check the header inside a mainnet identity envelope. -/
def validateMainnetHeader (headerBytes : Bytes) : Result Unit := do
  rejectIf (headerBytes.length ≠ 256) (.malformed "Mainnet genesis header must be 256 bytes")
  let header ← fromBytes BlockHeader headerBytes
  rejectIf (header.height ≠ 0 ∨ header.prevHash ≠ Hash256.zero) (.invalid
    "Mainnet genesis identity requires a height-zero header with zero previous hash")
  rejectIf (header.outputRoot ≠ emptyRoot ∨ header.kernelRoot ≠ emptyRoot ∨
    header.rangeproofRoot ≠ emptyRoot) (.invalid
    "Mainnet genesis identity requires empty output, kernel, and range-proof roots")

/-- Check that an inscription is the configured one. -/
def validateExactMainnetInscription (payload : Bytes) : Result Unit :=
  rejectIf (payload ≠ tagOctets genesisMessage) (.invalid
    "Mainnet genesis inscription does not match the configured consensus bytes")

/-- The envelope around a mainnet genesis header and inscription. -/
def mainnetIdentityBytes (headerBytes payload : Bytes) : Bytes :=
  [1] ++ beBytes 2 headerBytes.length ++ headerBytes ++
    beBytes 2 emptyBodyBytes.length ++ emptyBodyBytes ++
    [1] ++ beBytes 2 (inscriptionBytes payload).length ++ inscriptionBytes payload ++
    (inscriptionCommitment payload).toList

/-- Take `length` octets at a position of an envelope. -/
def takeAt (encoded : Bytes) (cursor length : Nat) : Result (Bytes × Nat) :=
  if cursor + length ≤ encoded.length then
    .ok ((encoded.drop cursor).take length, cursor + length)
  else .error (.malformed s!"unexpected end of Mainnet genesis identity at byte {cursor}")

/-- Parse a canonical inscription. -/
def inscriptionFromCanonicalBytes (encoded : Bytes) : Result Bytes := do
  rejectIf (encoded.length < 3) (.malformed
    "genesis inscription is shorter than its canonical prefix")
  rejectIf (encoded.getD 0 0 ≠ 1) (.invalid
    s!"unsupported genesis inscription version: {encoded.getD 0 0}")
  let declared := beNat ((encoded.drop 1).take 2)
  rejectIf (declared > maxGenesisInscriptionBytes) (.invalid
    s!"genesis inscription payload exceeds {maxGenesisInscriptionBytes} bytes")
  let actual := encoded.length - 3
  rejectIf (actual ≠ declared) (.malformed
    s!"genesis inscription length mismatch: declared {declared}, actual {actual}")
  let payload := encoded.drop 3
  rejectIf (ByteArray.validateUTF8 ⟨payload.toArray⟩ = false) (.invalid
    "genesis inscription is not valid UTF-8")
  pure payload

/-- Parse and validate a complete mainnet identity envelope; the result is its header octets. -/
def validateMainnetGenesisIdentity (encoded : Bytes) : Result Bytes := do
  let (version, cursor) ← takeAt encoded 0 1
  rejectIf (version ≠ [1]) (.invalid
    s!"unsupported Mainnet genesis identity version: {version.getD 0 0}")
  let (headerLength, cursor) ← takeAt encoded cursor 2
  rejectIf (beNat headerLength ≠ 256) (.malformed
    s!"Mainnet genesis header length must be 256, got {beNat headerLength}")
  let (headerBytes, cursor) ← takeAt encoded cursor (beNat headerLength)
  validateMainnetHeader headerBytes
  let (bodyLength, cursor) ← takeAt encoded cursor 2
  rejectIf (beNat bodyLength ≠ emptyBodyBytes.length) (.malformed
    (s!"Mainnet genesis empty body length must be {emptyBodyBytes.length}, " ++
      s!"got {beNat bodyLength}"))
  let (body, cursor) ← takeAt encoded cursor (beNat bodyLength)
  rejectIf (body ≠ emptyBodyBytes) (.invalid
    "Mainnet genesis body must contain zero inputs, outputs, kernels, and transactions")
  let (count, cursor) ← takeAt encoded cursor 1
  rejectIf (count ≠ [1]) (.invalid
    s!"Mainnet genesis requires exactly one inscription, got {count.getD 0 0}")
  let (inscriptionLength, cursor) ← takeAt encoded cursor 2
  let (inscription, cursor) ← takeAt encoded cursor (beNat inscriptionLength)
  let payload ← inscriptionFromCanonicalBytes inscription
  validateExactMainnetInscription payload
  let (stored, cursor) ← takeAt encoded cursor 32
  rejectIf (stored ≠ (inscriptionCommitment payload).toList) (.invalid
    "Mainnet genesis inscription commitment mismatch")
  rejectIf (cursor ≠ encoded.length) (.malformed
    s!"trailing Mainnet genesis identity bytes: {encoded.length - cursor}")
  pure headerBytes

/-- Only a string whose first octet is 1 is an envelope. -/
theorem head_of_validateMainnetGenesisIdentity {first : UInt8} {rest headerBytes : Bytes}
    (valid : validateMainnetGenesisIdentity (first :: rest) = .ok headerBytes) : first = 1 := by
  have htake : takeAt (first :: rest) 0 1 = .ok ([first], 1) := by
    rw [takeAt, if_pos (by simp)]
    rfl
  simp only [validateMainnetGenesisIdentity, htake, ok_bind, bind_eq_ok, rejectIf_eq_ok,
    not_not] at valid
  exact List.singleton_injective valid.choose_spec.1

/-! ## Block identifiers -/

/-- The hash of a header. -/
def computeBlockHash (headerBytes : Bytes) : Hash256 := blake2b256 headerBytes

/-- The identifier of a serialized header on a network. -/
def canonicalHeaderIdentifier (networkMagic : UInt32) (headerBytes : Bytes) : Result Hash256 := do
  let header ← fromBytes BlockHeader headerBytes
  if networkMagic = networkMagicMainnet ∧ header.height = 0 then do
    validateMainnetHeader headerBytes
    validateExactMainnetInscription (tagOctets genesisMessage)
    pure (blake2b256Tagged tagMainnetGenesisIdentity
      (mainnetIdentityBytes headerBytes (tagOctets genesisMessage)))
  else if networkMagic = networkMagicMainnet ∨ networkMagic = networkMagicTestnet ∨
      networkMagic = networkMagicRegtest then pure (blake2b256 headerBytes)
  else .error (.invalid
    s!"unknown network magic for block identifier: 0x{hexNat 8 networkMagic.toNat}")

omit [Primitives] in
@[simp] theorem fromBytes_headerBytes (header : BlockHeader) :
    fromBytes BlockHeader (headerBytes header) = .ok header := by
  have hfits : WireFormat.maxSize BlockHeader < 2 ^ 64 := by decide
  exact fromBytes_toBytes trivial hfits

/-- **Away from the mainnet genesis the identifier is the header hash.** -/
theorem canonicalHeaderIdentifier_eq_ok {networkMagic : UInt32} {header : BlockHeader}
    {hash : Hash256} (ordinary : ¬ (networkMagic = networkMagicMainnet ∧ header.height = 0)) :
    canonicalHeaderIdentifier networkMagic (headerBytes header) = .ok hash ↔
      (networkMagic = networkMagicMainnet ∨ networkMagic = networkMagicTestnet ∨
        networkMagic = networkMagicRegtest) ∧ hash = computeBlockHash (headerBytes header) := by
  rw [canonicalHeaderIdentifier, fromBytes_headerBytes, ok_bind, if_neg ordinary]
  split
  · rename_i hknown
    rw [pure_eq_ok, eq_comm]
    exact ⟨fun h => ⟨hknown, h⟩, fun h => h.2⟩
  · rename_i hunknown
    exact ⟨(nomatch ·), fun h => absurd h.1 hunknown⟩

/-! ## Canonical genesis blocks -/

/-- The canonical genesis header of a network over given roots. -/
def canonicalHeader (networkMagic : UInt32) (anchor : AsertAnchor) (roots : BlockRoots) :
    BlockHeader where
  version := blockVersionLegacy
  height := 0
  prevHash := Hash256.zero
  timestamp := anchor.timestamp
  outputRoot := roots.output
  kernelRoot := roots.kernel
  rangeproofRoot := roots.rangeproof
  totalKernelOffset := 0
  target := targetToCompact anchor.target
  totalDifficulty := BitVec.ofNat _ (targetToDifficulty anchor.target)
  pow :=
    if networkMagic = networkMagicMainnet then ⟨genesisNonceMainnet, genesisPowDigestMainnet⟩
    else if networkMagic = networkMagicRegtest then ⟨genesisNonceRegtest, genesisPowDigestRegtest⟩
    else ⟨0, 0⟩

/-- The coinbase of the canonical genesis block. -/
def buildGenesisCoinbase (chainId : Hash256) : Result CoinbaseTransaction := do
  let blinding := blake2b256Tagged tagGenesisBlinding []
  let _ ← okOr (.internal "genesis blinding: Invalid: blinding factor out of range")
    (scalarFromBytes blinding)
  rejectIf (blinding = 0) (.internal "genesis blinding: Invalid: blinding factor is zero")
  let nonce := blake2b256Tagged tagGenesisBlinding (tagOctets "bulletproof-nonce")
  let explicitValue := (blockReward 0).noms
  let commitment ← Commitment.commit explicitValue blinding
  let (proof, proofCommitment) ←
    mapError (fun e => .internal s!"genesis range proof failed: {e.display}")
      (proveRangeWithNonce explicitValue blinding nonce)
  rejectIf (proofCommitment ≠ commitment.bytes) (.internal
    "genesis range proof commitment mismatch")
  let excess ← Commitment.commit 0 blinding
  let message := blake2b256Tagged tagKernelMsgCoinbase
    ([kernelFeatCoinbase] ++ leBytes 8 explicitValue.toNat)
  let signature ← mapError (fun e => .internal s!"genesis signing failed: {e.display}")
    (schnorrSign blinding message.toList chainId)
  pure
    { output := ⟨commitment, proof⟩
      kernel := ⟨kernelFeatCoinbase, explicitValue, excess, signature⟩
      offset := 0 }

/-- A canonical genesis: its stored octets and identifier. -/
structure CanonicalGenesis where
  block : Option Block
  headerBytes : Bytes
  blockBytes : Bytes
  hash : Hash256

/-- The mainnet genesis envelope. -/
def constructMainnetIdentity : Result CanonicalGenesis := do
  let anchor ← genesisAnchor networkMagicMainnet
  let header := canonicalHeader networkMagicMainnet anchor ⟨emptyRoot, emptyRoot, emptyRoot⟩
  let headerBytes ← toBytes header
  validateMainnetHeader headerBytes
  let payload := tagOctets genesisMessage
  validateExactMainnetInscription payload
  let blockBytes := mainnetIdentityBytes headerBytes payload
  let _ ← validateMainnetGenesisIdentity blockBytes
  pure ⟨none, headerBytes, blockBytes, blake2b256Tagged tagMainnetGenesisIdentity blockBytes⟩

/-- The canonical genesis block of testnet and regtest. -/
def buildLegacyCanonicalGenesis (networkMagic : UInt32) (chainId : Hash256) :
    Result CanonicalGenesis := do
  let anchor ← genesisAnchor networkMagic
  let coinbase ← buildGenesisCoinbase
    (if networkMagic = networkMagicRegtest then regtestGenesisSigningContext else chainId)
  let roots ← computeBlockPmmrRoots 0 coinbase []
  let block : Block := ⟨canonicalHeader networkMagic anchor roots, coinbase, []⟩
  let headerBytes ← toBytes block.header
  let blockBytes ← toBytes block
  pure ⟨some block, headerBytes, blockBytes, computeBlockHash headerBytes⟩

/-- The canonical genesis of a network. -/
def buildCanonicalGenesis (networkMagic : UInt32) (chainId : Hash256) : Result CanonicalGenesis :=
  if networkMagic = networkMagicMainnet then constructMainnetIdentity
  else if networkMagic = networkMagicTestnet ∨ networkMagic = networkMagicRegtest then
    buildLegacyCanonicalGenesis networkMagic chainId
  else .error (.invalid
    s!"unknown network magic for canonical genesis: 0x{hexNat 8 networkMagic.toNat}")

end DomProtocol
