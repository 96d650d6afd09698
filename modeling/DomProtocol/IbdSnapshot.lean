import DomProtocol.Types
import DomProtocol.Lib.Table

/-! # Persisted state of the initial block download (`dom-chain`, `ibd.rs`)

A node writes the state of its download session into the metadata table, so that a restart can take
the session up again. **`PersistedIbdState`** is such a snapshot, with its binary format. The loader
rejects a snapshot that is out of order (**`PersistedIbdState.Ordered`**), whose lists exceed the
size of one header message, or whose cursors point behind their lists
(**`PersistedIbdState.Bounded`**). -/

namespace DomProtocol

open Parses (check field lift)

open Reader

/-! ## Phases and interruptions -/

/-- Maximum recoverable retries against one peer. -/
def maxIbdRetryAttempts : UInt8 := 3

/-- Maximum headers of one message. -/
def maxHeadersPerMsg : Nat := 2000

/-- Metadata key of the versioned snapshot. -/
def ibdSessionMetadataKey : Bytes := "ibd_session/v2".toUTF8.data.toList

/-- Metadata key of the snapshot before it had a version. -/
def legacyIbdSessionMetadataKey : Bytes := "ibd_session".toUTF8.data.toList

/-- Version octet in front of a snapshot. -/
def ibdSessionFormatVersion : UInt8 := 2

/-- Phase of the initial block download. -/
inductive IbdPhase where
  | Idle
  | Discovering
  | HeaderSync
  | BlockSync
  | Verifying
  | Recovering
  | Interrupted
  | Completed
  | Failed
  deriving DecidableEq, Repr

/-- Interruption classes of bounded recovery. -/
inductive IbdInterruption where
  | EmptyResponse
  | Timeout
  | PeerDisconnected
  | Verification
  deriving DecidableEq, Repr

/-- The octet of a phase. -/
def IbdPhase.tag : IbdPhase → UInt8
  | Idle => 0
  | Discovering => 1
  | HeaderSync => 2
  | BlockSync => 3
  | Verifying => 4
  | Recovering => 5
  | Interrupted => 6
  | Completed => 7
  | Failed => 8

/-- The phase of an octet. -/
def IbdPhase.ofTag (tag : UInt8) : Result IbdPhase :=
  match tag.toNat with
  | 0 => .ok Idle
  | 1 => .ok Discovering
  | 2 => .ok HeaderSync
  | 3 => .ok BlockSync
  | 4 => .ok Verifying
  | 5 => .ok Recovering
  | 6 => .ok Interrupted
  | 7 => .ok Completed
  | 8 => .ok Failed
  | other => .error (.malformed s!"unknown IBD phase tag {other}")

/-- The octet of an interruption. -/
def IbdInterruption.tag : IbdInterruption → UInt8
  | EmptyResponse => 0
  | Timeout => 1
  | PeerDisconnected => 2
  | Verification => 3

/-- The interruption of an octet. -/
def IbdInterruption.ofTag (tag : UInt8) : Result IbdInterruption :=
  match tag.toNat with
  | 0 => .ok EmptyResponse
  | 1 => .ok Timeout
  | 2 => .ok PeerDisconnected
  | 3 => .ok Verification
  | other => .error (.malformed s!"unknown IBD interruption tag {other}")

theorem IbdPhase.ofTag_eq_ok {tag : UInt8} {phase : IbdPhase} :
    IbdPhase.ofTag tag = .ok phase ↔ tag = phase.tag := by
  constructor
  · intro h
    have htag : tag = UInt8.ofNat tag.toNat := UInt8.ofNat_toNat.symm
    unfold IbdPhase.ofTag at h
    split at h <;> first | (cases h; rw [htag, ‹tag.toNat = _›]; rfl) | cases h
  · rintro rfl
    cases phase <;> rfl

theorem IbdInterruption.ofTag_eq_ok {tag : UInt8} {interruption : IbdInterruption} :
    IbdInterruption.ofTag tag = .ok interruption ↔ tag = interruption.tag := by
  constructor
  · intro h
    have htag : tag = UInt8.ofNat tag.toNat := UInt8.ofNat_toNat.symm
    unfold IbdInterruption.ofTag at h
    split at h <;> first | (cases h; rw [htag, ‹tag.toNat = _›]; rfl) | cases h
  · rintro rfl
    cases interruption <;> rfl

/-- A tag octet is parsed into the value it stands for. -/
theorem readTag_spec {α : Type} {ofTag : UInt8 → Result α} {tag : α → UInt8}
    (known : ∀ {octet a}, ofTag octet = .ok a ↔ octet = tag a) :
    Parses wire (do let octet ← readU8; liftExcept (ofTag octet))
      (fun a bs => True ∧ bs = [tag a]) :=
  readU8_spec.last (fun octet => lift (ofTag octet)) fun _ _ => and_congr_right' known

/-- Write an interruption class behind a presence octet. -/
def writeInterruption (w : Writer) : Option IbdInterruption → Writer
  | some interruption => (w.writeU8 1).writeU8 interruption.tag
  | none => w.writeU8 0

/-- Read an interruption class behind its presence octet. -/
def readInterruption : Decoder (Option IbdInterruption) := do
  let presence ← Reader.readU8
  match presence.toNat with
  | 0 => pure none
  | 1 => do
    let interruption ← (do let octet ← Reader.readU8; liftExcept (IbdInterruption.ofTag octet))
    pure (some interruption)
  | other =>
    liftExcept (.error (.malformed s!"invalid persisted interruption presence tag {other}"))

/-- Encoding of an optional interruption class. -/
def interruptionBytes : Option IbdInterruption → Bytes
  | some interruption => [1, interruption.tag]
  | none => [0]

theorem readInterruption_spec : Parses wire readInterruption
    (fun interruption bs => True ∧ bs = interruptionBytes interruption) := by
  refine (readU8_spec.bind (T := fun presence interruption bs =>
    bs.cons presence = interruptionBytes interruption) fun presence => ?_).congr
      fun interruption bs => ?_
  · -- the three branches of the presence octet
    have hoctet : presence = UInt8.ofNat presence.toNat := UInt8.ofNat_toNat.symm
    split
    · rename_i hzero
      rw [hzero] at hoctet
      refine (Parses.pure none).congr fun interruption bs => ?_
      cases interruption <;> simp [interruptionBytes, hoctet]
    · rename_i hone
      rw [hone] at hoctet
      refine ((readTag_spec IbdInterruption.ofTag_eq_ok).bind fun interruption =>
        Parses.pure (some interruption)).congr fun interruption bs => ?_
      cases interruption with
      | none => simp [interruptionBytes, hoctet]
      | some interruption => simp [interruptionBytes, hoctet]
    · rename_i hzero hone
      refine (lift _).congr fun interruption bs => ?_
      have hne : presence ≠ 0 ∧ presence ≠ 1 :=
        ⟨fun h => hzero (by rw [h]; rfl), fun h => hone (by rw [h]; rfl)⟩
      cases interruption <;> simp [interruptionBytes, hne]
  · cases interruption <;> simp [interruptionBytes]

/-! ## Snapshots -/

/-- **A persisted session**: phase, peer, height cursors, retry accounting and the work queues of
the round in progress. -/
@[ext] structure PersistedIbdState where
  phase : IbdPhase
  peerAddr : String
  startHeight : UInt64
  bestPeerHeight : UInt64
  headersHeight : UInt64
  blocksHeight : UInt64
  lastProgressHeight : UInt64
  checkpointTipHash : Hash256
  retryAttempts : UInt8
  lastInterruption : Option IbdInterruption
  pendingBlocks : List Hash256
  pendingHeaders : List Bytes
  blockCursor : UInt32
  headerCursor : UInt32
  headerCursorHeight : UInt64
  deriving DecidableEq

namespace PersistedIbdState

/-- **The order the loader requires**: the session started at or below the committed blocks, which
are at or below the last progress, which is at or below the headers; and the retry budget is not
exceeded. -/
structure Ordered (snapshot : PersistedIbdState) : Prop where
  start_le_blocks : snapshot.startHeight ≤ snapshot.blocksHeight
  blocks_le_progress : snapshot.blocksHeight ≤ snapshot.lastProgressHeight
  progress_le_headers : snapshot.lastProgressHeight ≤ snapshot.headersHeight
  retries : snapshot.retryAttempts ≤ maxIbdRetryAttempts

/-- **The sizes the loader requires.** -/
structure Bounded (snapshot : PersistedIbdState) : Prop where
  peerAddr : (utf8 snapshot.peerAddr).length ≤ 128
  pendingBlocks : snapshot.pendingBlocks.length ≤ maxHeadersPerMsg
  pendingHeaders : snapshot.pendingHeaders.length ≤ maxHeadersPerMsg
  headerSize : ∀ header ∈ snapshot.pendingHeaders, header.length ≤ 1024
  blockCursor : snapshot.blockCursor.toNat ≤ snapshot.pendingBlocks.length
  headerCursor : snapshot.headerCursor.toNat ≤ snapshot.pendingHeaders.length

/-- Whether a snapshot can be resumed without reconstructing the round in flight. -/
def isRoundResumable (snapshot : PersistedIbdState) : Bool :=
  if snapshot.pendingBlocks.length < snapshot.blockCursor.toNat ∨
      snapshot.pendingHeaders.length < snapshot.headerCursor.toNat then false
  else match snapshot.phase with
    -- while headers are validated the block queue is the accumulated output
    | .HeaderSync => snapshot.blockCursor = 0
    -- older snapshots may keep a redundant header cache after the transition
    | .BlockSync | .Verifying => snapshot.headerCursor = 0
    | _ =>
      if snapshot.pendingHeaders.isEmpty then snapshot.headerCursor = 0
      else snapshot.blockCursor = 0

end PersistedIbdState

/-! ## Binary format -/

instance : DomSerialize PersistedIbdState where
  serialize snapshot w := do
    let w := w.writeU8 ibdSessionFormatVersion
    let w := w.writeU8 snapshot.phase.tag
    let w ← w.writeVec (utf8 snapshot.peerAddr)
    let w := w.writeU64 snapshot.startHeight
    let w := w.writeU64 snapshot.bestPeerHeight
    let w := w.writeU64 snapshot.headersHeight
    let w := w.writeU64 snapshot.blocksHeight
    let w := w.writeU64 snapshot.lastProgressHeight
    let w := w.writeBytes snapshot.checkpointTipHash.toList
    let w := w.writeU8 snapshot.retryAttempts
    let w := writeInterruption w snapshot.lastInterruption
    let w ← w.writeCounted "pending block count exceeds u32"
      (fun hash w => .ok (w.writeBytes hash.toList)) snapshot.pendingBlocks
    let w ← w.writeCounted "pending header count exceeds u32" (fun header w => w.writeVec header)
      snapshot.pendingHeaders
    let w := w.writeU32 snapshot.blockCursor
    let w := w.writeU32 snapshot.headerCursor
    pure (w.writeU64 snapshot.headerCursorHeight)

/-- Read the version octet, which has one admissible value. -/
def readFormatVersion : Decoder Unit := do
  let version ← Reader.readU8
  liftExcept (rejectIf (version ≠ ibdSessionFormatVersion) (.malformed
    s!"unsupported persisted IBD format version {version}"))

/-- Read the peer address, which must be text. -/
def readPeerAddr : Decoder String := do
  let octets ← Reader.readVec 128
  liftExcept (okOr (.malformed s!"invalid persisted peer addr utf8: {utf8Error octets}")
    (fromUtf8 octets))

instance : DomDeserialize PersistedIbdState where
  minSerializedSize := 1 + 1 + 4 + 8 + 8 + 8 + 8 + 8 + 32 + 1 + 1 + 4 + 4 + 4 + 4 + 8
  deserialize := do
    readFormatVersion
    let phase ← (do let octet ← readU8; liftExcept (IbdPhase.ofTag octet))
    let peerAddr ← readPeerAddr
    let startHeight ← readU64
    let bestPeerHeight ← readU64
    let headersHeight ← readU64
    let blocksHeight ← readU64
    let lastProgressHeight ← readU64
    let checkpointTipHash ← readArray 32
    let retryAttempts ← readU8
    let lastInterruption ← readInterruption
    let pendingBlocks ← readCounted (readArray 32) maxHeadersPerMsg fun count =>
      s!"persisted pending block count {count} exceeds limit {maxHeadersPerMsg}"
    let pendingHeaders ← readCounted (readVec 1024) maxHeadersPerMsg fun count =>
      s!"persisted pending header count {count} exceeds limit {maxHeadersPerMsg}"
    let blockCursor ← readU32
    liftExcept (rejectIf (pendingBlocks.length < blockCursor.toNat) (.malformed
      (s!"persisted block cursor {blockCursor} exceeds pending block count " ++
        s!"{pendingBlocks.length}")))
    let headerCursor ← readU32
    liftExcept (rejectIf (pendingHeaders.length < headerCursor.toNat) (.malformed
      (s!"persisted header cursor {headerCursor} exceeds pending header count " ++
        s!"{pendingHeaders.length}")))
    let headerCursorHeight ← readU64
    liftExcept (rejectIf (blocksHeight < startHeight ∨ lastProgressHeight < blocksHeight ∨
      headersHeight < lastProgressHeight) (.malformed
      (s!"ibd state: non-monotonic heights (start={startHeight}, " ++
        s!"last_progress={lastProgressHeight}, blocks={blocksHeight}, headers={headersHeight})")))
    liftExcept (rejectIf (maxIbdRetryAttempts < retryAttempts) (.malformed
      s!"ibd state: retry_attempts {retryAttempts} exceeds max {maxIbdRetryAttempts}"))
    pure ⟨phase, peerAddr, startHeight, bestPeerHeight, headersHeight, blocksHeight,
      lastProgressHeight, checkpointTipHash, retryAttempts, lastInterruption, pendingBlocks,
      pendingHeaders, blockCursor, headerCursor, headerCursorHeight⟩

namespace PersistedIbdState

/-- The octets of a snapshot. -/
def octets (snapshot : PersistedIbdState) : Bytes :=
  [ibdSessionFormatVersion] ++ ([snapshot.phase.tag] ++ (vecBytes (utf8 snapshot.peerAddr) ++
    (leBytes 8 snapshot.startHeight.toNat ++ (leBytes 8 snapshot.bestPeerHeight.toNat ++
    (leBytes 8 snapshot.headersHeight.toNat ++ (leBytes 8 snapshot.blocksHeight.toNat ++
    (leBytes 8 snapshot.lastProgressHeight.toNat ++ (snapshot.checkpointTipHash.toList ++
    ([snapshot.retryAttempts] ++ (interruptionBytes snapshot.lastInterruption ++
    (countedBytes Octets.toList snapshot.pendingBlocks ++
    (countedBytes vecBytes snapshot.pendingHeaders ++ (leBytes 4 snapshot.blockCursor.toNat ++
    (leBytes 4 snapshot.headerCursor.toNat ++
    leBytes 8 snapshot.headerCursorHeight.toNat))))))))))))))

end PersistedIbdState

theorem readFormatVersion_spec : Parses wire readFormatVersion
    (fun _ bs => True ∧ bs = [ibdSessionFormatVersion]) := by
  refine readU8_spec.last (fun version => lift _) fun version _ => ?_
  rw [rejectIf_eq_ok, not_not]

theorem readPeerAddr_spec : Parses wire readPeerAddr
    (fun text bs => (utf8 text).length ≤ 128 ∧ bs = vecBytes (utf8 text)) := by
  refine (readVec_spec (by decide)).last (fun octets => lift _) fun octets text => ?_
  rw [okOr_eq_ok, fromUtf8_eq_some]
  exact and_congr_left fun htext => by rw [htext]

namespace PersistedIbdState

/-- **What the loader accepts** is a snapshot within its sizes and in its order. -/
theorem deserialize_spec : Parses wire (deserialize : Decoder PersistedIbdState)
    (fun snapshot bs => (snapshot.Bounded ∧ snapshot.Ordered) ∧ bs = snapshot.octets) := by
  refine Parses.congr (field (P := fun _ => True) (fun _ => ()) readFormatVersion_spec fun _ =>
    field phase (readTag_spec IbdPhase.ofTag_eq_ok) fun _ =>
    field peerAddr readPeerAddr_spec fun _ =>
    field startHeight readU64_spec fun _ =>
    field bestPeerHeight readU64_spec fun _ =>
    field headersHeight readU64_spec fun _ =>
    field blocksHeight readU64_spec fun _ =>
    field lastProgressHeight readU64_spec fun _ =>
    field checkpointTipHash (readArray_spec 32) fun _ =>
    field retryAttempts readU8_spec fun _ =>
    field lastInterruption readInterruption_spec fun _ =>
    field pendingBlocks
      (readCounted_spec (by decide) (readArray_spec 32)) fun _ =>
    field pendingHeaders
      (readCounted_spec (by decide) (readVec_spec (by decide))) fun _ =>
    field blockCursor readU32_spec fun _ =>
    check (fun s : PersistedIbdState => s.blockCursor.toNat ≤ s.pendingBlocks.length) ?_ <|
    field headerCursor readU32_spec fun _ =>
    check (fun s : PersistedIbdState => s.headerCursor.toNat ≤ s.pendingHeaders.length) ?_ <|
    field headerCursorHeight readU64_spec fun _ =>
    check (fun s : PersistedIbdState => s.startHeight ≤ s.blocksHeight ∧
      s.blocksHeight ≤ s.lastProgressHeight ∧ s.lastProgressHeight ≤ s.headersHeight) ?_ <|
    check (fun s : PersistedIbdState => s.retryAttempts ≤ maxIbdRetryAttempts) ?_ <|
    Parses.record fun snapshot => ?_) fun snapshot bs => ?_
  iterate 4 grind
  · simp [PersistedIbdState.ext_iff, and_assoc]
  · simp only [true_and, and_true, List.append_nil]
    refine and_congr ⟨?_, ?_⟩ Iff.rfl
    · rintro ⟨hpeer, ⟨hblocks, -⟩, hheaders, hblock, hheader, ⟨h1, h2, h3⟩, hretry⟩
      exact ⟨⟨hpeer, hblocks, hheaders.1, hheaders.2, hblock, hheader⟩, ⟨h1, h2, h3, hretry⟩⟩
    · rintro ⟨hsizes, horder⟩
      exact ⟨hsizes.peerAddr, ⟨hsizes.pendingBlocks, fun _ _ => trivial⟩,
        ⟨hsizes.pendingHeaders, hsizes.headerSize⟩, hsizes.blockCursor, hsizes.headerCursor,
        ⟨horder.start_le_blocks, horder.blocks_le_progress, horder.progress_le_headers⟩,
        horder.retries⟩

/-- What the serializer writes. -/
theorem serialize_spec (snapshot : PersistedIbdState) (bounded : snapshot.Bounded) :
    toBytes snapshot = .ok snapshot.octets := by
  have hpeer : (utf8 snapshot.peerAddr).length < 2 ^ 32 := bounded.peerAddr.trans_lt (by decide)
  have hblocks : snapshot.pendingBlocks.length < 2 ^ 32 ∧ ∀ a ∈ snapshot.pendingBlocks, True :=
    ⟨bounded.pendingBlocks.trans_lt (by decide), fun _ _ => trivial⟩
  have hheaders : snapshot.pendingHeaders.length < 2 ^ 32 ∧
      ∀ header ∈ snapshot.pendingHeaders, header.length < 2 ^ 32 :=
    ⟨bounded.pendingHeaders.trans_lt (by decide), fun header hmem =>
      (bounded.headerSize header hmem).trans_lt (by decide)⟩
  have hhash : ∀ hash : Hash256,
      Writes (fun w => (.ok (Writer.writeBytes w hash.toList) : Result Writer)) True hash.toList :=
    fun _ => Writes.of_ok fun _ => rfl
  simp only [toBytes, serialize, bind_eq_ok, pure_eq_ok, Writer.writeVec_spec _ _ _,
    Writer.writeCounted_spec _ hhash _ _ _, Writer.writeCounted_spec _ Writer.writeVec_spec _ _ _]
  refine ⟨_, ⟨hpeer, rfl⟩, _, ⟨hblocks, rfl⟩, _, ⟨hheaders, rfl⟩, ?_⟩
  cases hlast : snapshot.lastInterruption <;>
    simp [octets, hlast, interruptionBytes, writeInterruption, Writer.writeU8, Writer.writeU32,
      Writer.writeU64, Writer.writeBytes, Writer.new]

theorem length_octets_lt {snapshot : PersistedIbdState} (bounded : snapshot.Bounded) :
    snapshot.octets.length < 2 ^ 64 := by
  have hblocks := length_counted_le bounded.pendingBlocks
    fun hash _ => (Octets.length_toList hash).le
  have hsize : ∀ header ∈ snapshot.pendingHeaders, (vecBytes header).length ≤ 4 + 1024 := by
    intro header hmem
    rw [length_vecBytes]
    exact Nat.add_le_add_left (bounded.headerSize header hmem) 4
  have hheaders := length_counted_le bounded.pendingHeaders hsize
  have hpeer := bounded.peerAddr
  have hlast : (interruptionBytes snapshot.lastInterruption).length ≤ 2 := by
    cases snapshot.lastInterruption <;> simp [interruptionBytes]
  simp only [octets, countedBytes, List.length_append, length_leBytes, length_vecBytes,
    Octets.length_toList, List.length_singleton, maxHeadersPerMsg] at *
  omega

/-! ## Metadata -/

/-- Decode the body that had no version octet. -/
def fromLegacyBytes (bytes : Bytes) : Result PersistedIbdState :=
  fromBytes PersistedIbdState (ibdSessionFormatVersion :: bytes)

/-- Write a snapshot into the metadata. -/
def save (snapshot : PersistedIbdState) (metadata : Table Bytes Bytes) :
    Result (Table Bytes Bytes) := do
  let bytes ← toBytes snapshot
  pure ((metadata.insert ibdSessionMetadataKey bytes).erase legacyIbdSessionMetadataKey)

/-- Read the snapshot, if there is one; an unversioned one is rewritten. -/
def load (metadata : Table Bytes Bytes) : Result (Option PersistedIbdState × Table Bytes Bytes) :=
  match metadata[ibdSessionMetadataKey]? with
  | some bytes => do
    let snapshot ← fromBytes PersistedIbdState bytes
    pure (some snapshot, metadata)
  | none =>
    match metadata[legacyIbdSessionMetadataKey]? with
    | some bytes => do
      let migrated ← fromLegacyBytes bytes
      let metadata ← migrated.save metadata
      pure (some migrated, metadata)
    | none => pure (none, metadata)

/-- **A snapshot within the loader's sizes survives a restart exactly when it is in order.** -/
theorem load_save {snapshot : PersistedIbdState} (bounded : snapshot.Bounded)
    (metadata : Table Bytes Bytes) :
    (∃ saved, snapshot.save metadata = .ok saved ∧ load saved = .ok (some snapshot, saved)) ↔
      snapshot.Ordered := by
  have hkeys : legacyIbdSessionMetadataKey ≠ ibdSessionMetadataKey := by decide
  have hget : ((metadata.insert ibdSessionMetadataKey snapshot.octets).erase
      legacyIbdSessionMetadataKey)[ibdSessionMetadataKey]? = some snapshot.octets := by
    rw [Table.getElem?_erase, if_neg hkeys, Table.getElem?_insert, if_pos rfl]
  simp only [save, serialize_spec snapshot bounded, ok_bind, pure_eq_ok, exists_eq_left', load,
    hget, bind_eq_ok, Prod.mk.injEq, Option.some.injEq]
  constructor
  · rintro ⟨_, hdecoded, rfl, -⟩
    exact (parses_of_fromBytes deserialize_spec hdecoded).1.2
  · intro hordered
    exact ⟨snapshot, fromBytes_of_parses deserialize_spec ⟨⟨bounded, hordered⟩, rfl⟩
      (length_octets_lt bounded), rfl, trivial⟩

/-- **Loading is idempotent**: what a load leaves, after the rewrite of an unversioned snapshot, is
loaded again as the same snapshot. -/
theorem load_idempotent (metadata : Table Bytes Bytes) :
    (do load (← load metadata).2) = load metadata := by
  cases hloaded : load metadata with
  | error e => rfl
  | ok loaded =>
    show load loaded.2 = .ok loaded
    unfold load at hloaded
    split at hloaded
    · rename_i bytes hbytes
      obtain ⟨snapshot, hread, ⟨⟩⟩ := bind_eq_ok.mp hloaded
      rw [load, hbytes]
      simp only [hread, ok_bind]
      rfl
    split at hloaded
    · obtain ⟨migrated, hread, hsave⟩ := bind_eq_ok.mp hloaded
      obtain ⟨saved, hsaved, ⟨⟩⟩ := bind_eq_ok.mp hsave
      obtain ⟨⟨hbounded, hordered⟩, -⟩ := parses_of_fromBytes deserialize_spec hread
      obtain ⟨saved', hsaved', hload⟩ := (load_save hbounded metadata).mpr hordered
      cases hsaved.symm.trans hsaved'
      exact hload
    · cases hloaded
      simp only [load, *]
      rfl

end PersistedIbdState

end DomProtocol
