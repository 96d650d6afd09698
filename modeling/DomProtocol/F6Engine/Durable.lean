import DomProtocol.Lib.EventLog
import DomProtocol.Lib.Scan
import DomProtocol.F6Engine.Ledger

/-! # The durable binding engine (`f6-engine`)

**`DurableBinding`** and **`DurableBindingV2`** keep a ledger in memory and its events in an
append-only journal of frames. The selection rule, the admissibility check and the assembly of the
terms belong to the negotiation layer and enter as the classes **`Negotiation`** and
**`NegotiationV2`**, about which nothing is assumed.

Bindings are exclusive in every run (`bindings_exclusive`). Version 1 bounds its reservations and
not its selections, so its journal can outgrow the bound that opening enforces
(`accepted_history_reopens_iff`). -/

namespace DomProtocol.F6Engine

open Driver

/-! ## The negotiation layer -/

/-- The recorded outcome of a selection. -/
structure SelectionV1 where
  rfqId : Digest32
  winningQuote : Digest32
  inputsDigest : Digest32

/-- What the engine uses of the negotiation layer, version 1. -/
class Negotiation where
  Rfq : Type
  Quote : Type
  Facts : Type
  Market : Type
  Parts : Type
  SelectionError : Type
  AdmissibilityRefusal : Type
  RfqObjectError : Type
  rfqId : Rfq → Digest32
  quoteId : Quote → Digest32
  solver : Quote → ParticipantId
  bondReservationId : Quote → Digest32
  withBondReserved : Facts → Bool → Facts
  selectWinner : Rfq → List (Quote × Facts) → Market → Except SelectionError SelectionV1
  admissibility : Rfq → Quote → Facts → Market → Except AdmissibilityRefusal Unit
  termsHash : Rfq → Quote → Parts → Except RfqObjectError Digest32

/-- The recorded outcome of a selection, version 2. -/
structure SelectionV2 where
  compositionId : Digest32
  position : SettlementPositionV2
  rfqId : Digest32
  winningQuote : Digest32
  inputsDigest : Digest32

/-- What the engine uses of the negotiation layer, version 2. -/
class NegotiationV2 where
  Rfq : Type
  Quote : Type
  Facts : Type
  Market : Type
  Faces : Type
  F6V2Refusal : Type
  compositionId : Rfq → Digest32
  position : Rfq → SettlementPositionV2
  rfqId : Rfq → Digest32
  quoteId : Quote → Digest32
  solver : Quote → ParticipantId
  bondReservationId : Quote → Digest32
  withBondReserved : Facts → Bool → Facts
  selectWinner : Rfq → List (Quote × Facts) → Market → Except F6V2Refusal SelectionV2
  admissibility : Rfq → Quote → Facts → Market → Except F6V2Refusal Unit
  acceptance : Rfq → Quote → Faces → ParticipantId → Except F6V2Refusal Digest32

/-! ## Failures -/

/-- Failures of the engine. -/
inductive EngineError [Negotiation] where
  | Refused (refusal : BindingRefusal)
  | Inadmissible (refusal : Negotiation.AdmissibilityRefusal)
  | Selection (error : Negotiation.SelectionError)
  | Terms (error : Negotiation.RfqObjectError)
  | Log (message : String)
  | ForeignRecord
  | UndecodableFrame
  | RevisionGap
  | ReplayDivergence (refusal : BindingRefusal)
  | JournalTooLarge
  | BindingDivergence
  | CounterOverflow

/-- Failures of the engine, version 2. -/
inductive EngineErrorV2 [NegotiationV2] where
  | Refused (refusal : BindingRefusalV2)
  | F6 (refusal : NegotiationV2.F6V2Refusal)
  | Log (message : String)
  | ForeignRecord
  | UndecodableFrame
  | RevisionGap
  | ReplayDivergence (refusal : BindingRefusalV2)
  | JournalTooLarge
  | BindingDivergence

/-! ## Reading frames -/

section Reader

variable {ε β : Type} (undecodable : ε)

open Scan

/-- Read a digest. -/
abbrev take32 : Scan ε Digest32 := takeArray undecodable 32

/-- Fail unless the octets read are the expected ones. -/
def expect (expected : Bytes) : Scan ε Unit := do
  let bytes ← take undecodable expected.length
  if bytes = expected then pure () else throw undecodable

/-- Read a settlement position. -/
def takePosition : Scan ε SettlementPositionV2 := do
  match ← takeU8 undecodable with
  | 1 => pure .Upstream
  | 2 => pure .Downstream
  | _ => throw undecodable

theorem takeU8_bind (octet : UInt8) (back : Bytes) (k : UInt8 → Scan ε β) :
    (takeU8 undecodable >>= k) (octet :: back) = k octet back :=
  (takeU8_spec undecodable).bind_append trivial back k

theorem expect_bind (expected back : Bytes) (k : Unit → Scan ε β) :
    (expect undecodable expected >>= k) (expected ++ back) = k () back := by
  rw [expect, bind_assoc, (take_spec undecodable _).bind_append rfl, if_pos rfl, pure_bind]

theorem takePosition_bind (position : SettlementPositionV2) (back : Bytes)
    (k : SettlementPositionV2 → Scan ε β) :
    (takePosition undecodable >>= k) (position.toU8 :: back) = k position back := by
  rw [takePosition, bind_assoc, takeU8_bind]
  cases position <;> rfl

/-- The steps of a decoder over the octets of a frame. -/
theorem take32_bind (digest : Digest32) (back : Bytes) (k : Digest32 → Scan ε β) :
    (take32 undecodable >>= k) (digest.toList ++ back) = k digest back :=
  (takeArray_spec undecodable 32).bind_append trivial back k

theorem take32_bind_last (digest : Digest32) (k : Digest32 → Scan ε β) :
    (take32 undecodable >>= k) digest.toList = k digest [] :=
  (takeArray_spec undecodable 32).bind_encoding trivial k

theorem takeU64_bind (value : UInt64) (back : Bytes) (k : UInt64 → Scan ε β) :
    (takeU64 undecodable >>= k) (beBytes 8 value.toNat ++ back) = k value back :=
  (takeU64_spec undecodable).bind_append trivial back k

end Reader

/-! ## Frames -/

/-- Leading magic of every binding frame, `DOMIF6J1`. -/
def frameMagic : Bytes := [0x44, 0x4F, 0x4D, 0x49, 0x46, 0x36, 0x4A, 0x31]

/-- Leading magic of a frame of version 2, `DOMIF6J2`. -/
def frameMagicV2 : Bytes := [0x44, 0x4F, 0x4D, 0x49, 0x46, 0x36, 0x4A, 0x32]

/-- Frozen frame wire version. -/
def frameWireVersion : Nat := 1

/-- Frozen frame wire version of version 2. -/
def frameWireVersionV2 : Nat := 2

/-- Hard cap on one frame, in both versions. -/
def maxFrameBytes : Nat := 512

/-- Hard cap on replayable history, in both versions. -/
def maxJournalFrames : Nat := 65536

/-- The canonical frame: magic, wire version, revision, event tag, fields. -/
def encodeFrame (revision : UInt64) (event : BindingEventV1) : Bytes :=
  frameMagic ++ (beBytes 2 frameWireVersion ++ (beBytes 8 revision.toNat ++
    match event with
    | .Reserved reservationId rfqId quoteId solver =>
      0x01 :: (reservationId.toList ++ (rfqId.toList ++ (quoteId.toList ++ solver.toList)))
    | .Bound rfqId quoteId solver acceptedBy reservationId termsHash =>
      0x02 :: (rfqId.toList ++ (quoteId.toList ++ (solver.toList ++ (acceptedBy.toList ++
        (reservationId.toList ++ termsHash.toList)))))
    | .Released reservationId => 0x03 :: reservationId.toList
    | .Selected rfqId winningQuote inputsDigest =>
      0x04 :: (rfqId.toList ++ (winningQuote.toList ++ inputsDigest.toList))))

/-- The octets of a frame of version 2: the scope follows the tag. -/
def frameBytesV2 (revision : UInt64) (event : BindingEventV2) : Bytes :=
  frameMagicV2 ++ (beBytes 2 frameWireVersionV2 ++ (beBytes 8 revision.toNat ++
    match event with
    | .Reserved compositionId position reservationId rfqId quoteId solver =>
      1 :: (compositionId.toList ++ position.toU8 :: (reservationId.toList ++ (rfqId.toList ++
        (quoteId.toList ++ solver.toList))))
    | .Selected compositionId position rfqId winningQuote inputsDigest =>
      2 :: (compositionId.toList ++ position.toU8 :: (rfqId.toList ++ (winningQuote.toList ++
        inputsDigest.toList)))
    | .Bound compositionId position rfqId quoteId solver acceptedBy reservationId termsHash =>
      3 :: (compositionId.toList ++ position.toU8 :: (rfqId.toList ++ (quoteId.toList ++
        (solver.toList ++ (acceptedBy.toList ++ (reservationId.toList ++ termsHash.toList))))))
    | .Released compositionId position reservationId rfqId quoteId solver =>
      4 :: (compositionId.toList ++ position.toU8 :: (reservationId.toList ++ (rfqId.toList ++
        (quoteId.toList ++ solver.toList))))))

/-- The canonical frame of version 2. -/
def encodeFrameV2 [NegotiationV2] (revision : UInt64) (event : BindingEventV2) :
    Except EngineErrorV2 Bytes := do
  mapError .Refused (validateEvent event)
  pure (frameBytesV2 revision event)

section Decoders

variable {ε : Type} (undecodable : ε)

open Scan (takeU8 takeU64)

/-- The fields of an event under its tag. -/
def readEvent : UInt8 → Scan ε BindingEventV1
  | 0x01 => do
    let reservationId ← take32 undecodable
    let rfqId ← take32 undecodable
    let quoteId ← take32 undecodable
    let solver ← take32 undecodable
    pure (.Reserved reservationId rfqId quoteId solver)
  | 0x02 => do
    let rfqId ← take32 undecodable
    let quoteId ← take32 undecodable
    let solver ← take32 undecodable
    let acceptedBy ← take32 undecodable
    let reservationId ← take32 undecodable
    let termsHash ← take32 undecodable
    pure (.Bound rfqId quoteId solver acceptedBy reservationId termsHash)
  | 0x03 => do
    let reservationId ← take32 undecodable
    pure (.Released reservationId)
  | 0x04 => do
    let rfqId ← take32 undecodable
    let winningQuote ← take32 undecodable
    let inputsDigest ← take32 undecodable
    pure (.Selected rfqId winningQuote inputsDigest)
  | _ => throw undecodable

/-- The fields of an event of version 2 under its tag and scope. -/
def readEventV2 (compositionId : Digest32) (position : SettlementPositionV2) :
    UInt8 → Scan ε BindingEventV2
  | 1 => do
    let reservationId ← take32 undecodable
    let rfqId ← take32 undecodable
    let quoteId ← take32 undecodable
    let solver ← take32 undecodable
    pure (.Reserved compositionId position reservationId rfqId quoteId solver)
  | 2 => do
    let rfqId ← take32 undecodable
    let winningQuote ← take32 undecodable
    let inputsDigest ← take32 undecodable
    pure (.Selected compositionId position rfqId winningQuote inputsDigest)
  | 3 => do
    let rfqId ← take32 undecodable
    let quoteId ← take32 undecodable
    let solver ← take32 undecodable
    let acceptedBy ← take32 undecodable
    let reservationId ← take32 undecodable
    let termsHash ← take32 undecodable
    pure (.Bound compositionId position rfqId quoteId solver acceptedBy reservationId termsHash)
  | 4 => do
    let reservationId ← take32 undecodable
    let rfqId ← take32 undecodable
    let quoteId ← take32 undecodable
    let solver ← take32 undecodable
    pure (.Released compositionId position reservationId rfqId quoteId solver)
  | _ => throw undecodable

/-- The fields of a frame. -/
def readFrame : Scan ε (UInt64 × BindingEventV1) := do
  expect undecodable frameMagic
  expect undecodable (beBytes 2 frameWireVersion)
  let revision ← takeU64 undecodable
  let tag ← takeU8 undecodable
  let event ← readEvent undecodable tag
  pure (revision, event)

/-- The fields of a frame of version 2. -/
def readFrameV2 : Scan ε (UInt64 × BindingEventV2) := do
  expect undecodable frameMagicV2
  expect undecodable (beBytes 2 frameWireVersionV2)
  let revision ← takeU64 undecodable
  let tag ← takeU8 undecodable
  let compositionId ← take32 undecodable
  let position ← takePosition undecodable
  let event ← readEventV2 undecodable compositionId position tag
  pure (revision, event)

end Decoders

/-- Strict decoder: fails on magic, version, truncation, unknown tag, trailing bytes or an oversized
frame. -/
def decodeFrame [Negotiation] (bytes : Bytes) : Except EngineError (UInt64 × BindingEventV1) := do
  rejectIf (bytes.length > maxFrameBytes) .UndecodableFrame
  let (frame, rest) ← readFrame .UndecodableFrame bytes
  rejectIf (rest ≠ []) .UndecodableFrame
  pure frame

/-- Strict decoder of version 2, which also compares the frame with the encoding of its content. -/
def decodeFrameV2 [NegotiationV2] (bytes : Bytes) :
    Except EngineErrorV2 (UInt64 × BindingEventV2) := do
  rejectIf (bytes.length > maxFrameBytes) .UndecodableFrame
  let (frame, rest) ← readFrameV2 .UndecodableFrame bytes
  rejectIf (rest ≠ []) .UndecodableFrame
  mapError (fun _ => .UndecodableFrame) (validateEvent frame.2)
  let encoded ← encodeFrameV2 frame.1 frame.2
  rejectIf (encoded ≠ bytes) .UndecodableFrame
  pure frame

/-! ## Frames decode to what was encoded -/

theorem readFrame_encodeFrame {ε : Type} (undecodable : ε) (revision : UInt64)
    (event : BindingEventV1) :
    readFrame undecodable (encodeFrame revision event) = .ok ((revision, event), []) := by
  cases event <;>
    simp only [readFrame, encodeFrame, readEvent, expect_bind, takeU64_bind, takeU8_bind,
      bind_assoc, take32_bind, take32_bind_last, pure_bind] <;> rfl

theorem readFrameV2_frameBytesV2 {ε : Type} (undecodable : ε) (revision : UInt64)
    (event : BindingEventV2) :
    readFrameV2 undecodable (frameBytesV2 revision event) = .ok ((revision, event), []) := by
  cases event <;>
    simp only [readFrameV2, frameBytesV2, readEventV2, expect_bind, takeU64_bind, takeU8_bind,
      takePosition_bind, bind_assoc, take32_bind, take32_bind_last, pure_bind] <;> rfl

theorem length_encodeFrame_le (revision : UInt64) (event : BindingEventV1) :
    (encodeFrame revision event).length ≤ maxFrameBytes := by
  cases event <;> simp [encodeFrame, frameMagic, maxFrameBytes]

theorem length_frameBytesV2_le (revision : UInt64) (event : BindingEventV2) :
    (frameBytesV2 revision event).length ≤ maxFrameBytes := by
  cases event <;> simp [frameBytesV2, frameMagicV2, maxFrameBytes]

theorem decodeFrame_encodeFrame [Negotiation] (revision : UInt64) (event : BindingEventV1) :
    decodeFrame (encodeFrame revision event) = .ok (revision, event) := by
  rw [decodeFrame, rejectIf_of_not _ (Nat.not_lt.mpr (length_encodeFrame_le revision event)),
    ok_bind, readFrame_encodeFrame]
  rfl

theorem decodeFrameV2_encodeFrameV2 [NegotiationV2] {revision : UInt64} {event : BindingEventV2}
    {bytes : Bytes} (encoded : encodeFrameV2 revision event = .ok bytes) :
    decodeFrameV2 bytes = .ok (revision, event) := by
  have valid := encoded
  simp only [encodeFrameV2, bind_eq_ok, mapError_eq_ok, pure_eq_ok] at valid
  obtain ⟨_, valid, rfl⟩ := valid
  rw [decodeFrameV2, rejectIf_of_not _ (Nat.not_lt.mpr (length_frameBytesV2_le revision event)),
    ok_bind, readFrameV2_frameBytesV2]
  show (mapError _ (validateEvent event) >>= fun _ => encodeFrameV2 revision event >>= _) = _
  rw [valid, encoded]
  show (rejectIf (frameBytesV2 revision event ≠ frameBytesV2 revision event) _ >>= _) = _
  rw [rejectIf_of_not _ (not_not.mpr rfl)]
  rfl

/-! ## The durable ledgers -/

/-- Forgetting the value a call returns does not change whether it succeeds. -/
theorem map_const_map {ε α : Type} (answer : Except ε Unit) (a : α) :
    (answer.map fun _ => a).map (fun _ => ()) = answer := by
  cases answer <;> rfl

section Version1

variable [Negotiation]

open Negotiation

/-- The driver of version 1. -/
def driverV1 : Driver BindingLedgerV1 BindingEventV1 BindingRefusal EngineError where
  start := .new
  cap := maxJournalFrames
  apply := BindingLedgerV1.apply
  encode revision event := .ok (encodeFrame revision event)
  decode := decodeFrame
  refused := .Refused
  divergence := .ReplayDivergence
  gap := .RevisionGap
  tooLarge := .JournalTooLarge
  overflow := .CounterOverflow

/-- The pure ledger plus a durable history. -/
abbrev DurableBinding := Journalled BindingLedgerV1

namespace DurableBinding

/-- Open the engine over a log, replaying every frame. -/
def openLog (log : List Bytes) : Except EngineError DurableBinding := driverV1.openLog log

/-- Apply one event: decide, append, advance. `append` is the answer of the log. -/
def apply (append : Except EngineError Unit) (d : DurableBinding) (event : BindingEventV1) :
    Except EngineError Unit × DurableBinding := driverV1.record append d event

/-- Run the selection over the candidates, each with its reservation attested by this ledger, and
record the outcome. -/
def selectAndRecord (append : Except EngineError Unit) (d : DurableBinding) (rfq : Rfq)
    (candidates : List (Quote × Facts)) (market : Market) :
    Except EngineError SelectionV1 × DurableBinding :=
  let attested := candidates.map fun (quote, facts) =>
    (quote, withBondReserved facts (d.state.reservationBacks
      (bondReservationId quote) (rfqId rfq) (quoteId quote)
      (solver quote)))
  match selectWinner rfq attested market with
  | .error e => (.error (.Selection e), d)
  | .ok outcome =>
    (d.apply append (.Selected outcome.rfqId outcome.winningQuote outcome.inputsDigest)).map
      (Except.map fun _ => outcome) id

/-- The acceptance of bound terms. -/
structure Acceptance where
  termsHash : Digest32
  rfqId : Digest32
  quoteId : Digest32
  acceptedBy : ParticipantId

/-- The atomic binding of a selected quote: validate with the reservation attested by this ledger,
assemble the terms, record one frame. -/
def bindSelected (append : Except EngineError Unit) (d : DurableBinding) (rfq : Rfq)
    (quote : Quote) (facts : Facts) (market : Market)
    (parts : Parts) (acceptedBy : ParticipantId) :
    Except EngineError Acceptance × DurableBinding :=
  let attested := withBondReserved facts (d.state.reservationBacks
    (bondReservationId quote) (rfqId rfq) (quoteId quote)
    (solver quote))
  match admissibility rfq quote attested market with
  | .error e => (.error (.Inadmissible e), d)
  | .ok () =>
    match termsHash rfq quote parts with
    | .error e => (.error (.Terms e), d)
    | .ok termsHash =>
      (d.apply append (.Bound (rfqId rfq) (quoteId quote)
        (solver quote) acceptedBy (bondReservationId quote)
        termsHash)).map (Except.map fun _ =>
          ⟨termsHash, rfqId rfq, quoteId quote, acceptedBy⟩) id

end DurableBinding

/-- A public call of the engine. -/
inductive CallV1 where
  | apply (event : BindingEventV1)
  | selectAndRecord (rfq : Rfq)
      (candidates : List (Quote × Facts)) (market : Market)
  | bindSelected (rfq : Rfq) (quote : Quote) (facts : Facts)
      (market : Market) (parts : Parts) (acceptedBy : ParticipantId)

/-- Run a public call, with the answer of the log to its append. -/
def CallV1.run (request : CallV1 × Except EngineError Unit) (d : DurableBinding) :
    Except EngineError Unit × DurableBinding :=
  match request.1 with
  | .apply event => d.apply request.2 event
  | .selectAndRecord rfq candidates market =>
    (d.selectAndRecord request.2 rfq candidates market).map (Except.map fun _ => ()) id
  | .bindSelected rfq quote facts market parts acceptedBy =>
    (d.bindSelected request.2 rfq quote facts market parts acceptedBy).map
      (Except.map fun _ => ()) id

theorem driverV1_exact : driverV1.Exact where
  decode_encode {revision event bytes} encoded := by
    cases encoded
    exact decodeFrame_encodeFrame revision event

/-- Every public call records at most one event. -/
theorem driverV1_recording : driverV1.Recording CallV1.run := by
  rintro ⟨call, append⟩ d
  cases call with
  | apply event => exact record_effect append d event
  | _ =>
    simp only [CallV1.run, DurableBinding.selectAndRecord, DurableBinding.bindSelected]
    repeat' split
    all_goals first
      | exact Effect.failed d _
      | simp only [Prod.map, map_const_map, id]
        exact record_effect append d _

end Version1

section Version2

variable [NegotiationV2]

open NegotiationV2

/-- The driver of version 2. -/
def driverV2 : Driver BindingLedgerV2 BindingEventV2 BindingRefusalV2 EngineErrorV2 where
  start := .new
  cap := maxJournalFrames
  apply := BindingLedgerV2.apply
  encode := encodeFrameV2
  decode := decodeFrameV2
  refused := .Refused
  divergence := .ReplayDivergence
  gap := .RevisionGap
  tooLarge := .JournalTooLarge
  overflow := .RevisionGap

/-- The pure ledger plus a durable history. -/
abbrev DurableBindingV2 := Journalled BindingLedgerV2

namespace DurableBindingV2

/-- Open the engine over a log, replaying every frame. -/
def openLog (log : List Bytes) : Except EngineErrorV2 DurableBindingV2 := driverV2.openLog log

/-- Apply one event: decide, append, advance. `append` is the answer of the log. -/
def apply (append : Except EngineErrorV2 Unit) (d : DurableBindingV2) (event : BindingEventV2) :
    Except EngineErrorV2 Unit × DurableBindingV2 := driverV2.record append d event

/-- Run the selection over the candidates, each with its reservation attested by this ledger, and
record the outcome in its scope. -/
def selectAndRecord (append : Except EngineErrorV2 Unit) (d : DurableBindingV2)
    (rfq : Rfq) (candidates : List (Quote × Facts))
    (market : Market) : Except EngineErrorV2 SelectionV2 × DurableBindingV2 :=
  let attested := candidates.map fun (quote, facts) =>
    (quote, withBondReserved facts (d.state.reservationBacks
      (bondReservationId quote) (compositionId rfq)
      (position rfq) (rfqId rfq) (quoteId quote)
      (solver quote)))
  match selectWinner rfq attested market with
  | .error e => (.error (.F6 e), d)
  | .ok outcome =>
    (d.apply append (.Selected outcome.compositionId outcome.position outcome.rfqId
      outcome.winningQuote outcome.inputsDigest)).map (Except.map fun _ => outcome) id

/-- Revalidate the winner, build the exact terms and record one atomic binding frame. The answer is
the terms hash of the acceptance. -/
def bindSelected (append : Except EngineErrorV2 Unit) (d : DurableBindingV2)
    (rfq : Rfq) (quote : Quote) (facts : Facts)
    (market : Market) (faces : Faces) (acceptedBy : ParticipantId) :
    Except EngineErrorV2 Digest32 × DurableBindingV2 :=
  let attested := withBondReserved facts (d.state.reservationBacks
    (bondReservationId quote) (compositionId rfq)
    (position rfq) (rfqId rfq) (quoteId quote)
    (solver quote))
  match admissibility rfq quote attested market with
  | .error e => (.error (.F6 e), d)
  | .ok () =>
    match acceptance rfq quote faces acceptedBy with
    | .error e => (.error (.F6 e), d)
    | .ok termsHash =>
      (d.apply append (.Bound (compositionId rfq) (position rfq)
        (rfqId rfq) (quoteId quote) (solver quote)
        acceptedBy (bondReservationId quote) termsHash)).map
          (Except.map fun _ => termsHash) id

end DurableBindingV2

/-- A public call of the engine. -/
inductive CallV2 where
  | apply (event : BindingEventV2)
  | selectAndRecord (rfq : Rfq)
      (candidates : List (Quote × Facts)) (market : Market)
  | bindSelected (rfq : Rfq) (quote : Quote)
      (facts : Facts) (market : Market) (faces : Faces)
      (acceptedBy : ParticipantId)

/-- Run a public call, with the answer of the log to its append. -/
def CallV2.run (request : CallV2 × Except EngineErrorV2 Unit) (d : DurableBindingV2) :
    Except EngineErrorV2 Unit × DurableBindingV2 :=
  match request.1 with
  | .apply event => d.apply request.2 event
  | .selectAndRecord rfq candidates market =>
    (d.selectAndRecord request.2 rfq candidates market).map (Except.map fun _ => ()) id
  | .bindSelected rfq quote facts market faces acceptedBy =>
    (d.bindSelected request.2 rfq quote facts market faces acceptedBy).map
      (Except.map fun _ => ()) id

theorem driverV2_exact : driverV2.Exact where
  decode_encode encoded := decodeFrameV2_encodeFrameV2 encoded

/-- Every public call records at most one event. -/
theorem driverV2_recording : driverV2.Recording CallV2.run := by
  rintro ⟨call, append⟩ d
  cases call with
  | apply event => exact record_effect append d event
  | _ =>
    simp only [CallV2.run, DurableBindingV2.selectAndRecord, DurableBindingV2.bindSelected]
    repeat' split
    all_goals first
      | exact Effect.failed d _
      | simp only [Prod.map, map_const_map, id]
        exact record_effect append d _

end Version2

/-! ## Exclusive bindings -/

/-- The events in a journal. -/
def journalled [Negotiation] (log : List Bytes) : List BindingEventV1 :=
  log.filterMap fun frame => (decodeFrame frame).toOption.map Prod.snd

/-- The events in a journal of version 2. -/
def journalledV2 [NegotiationV2] (log : List Bytes) : List BindingEventV2 :=
  log.filterMap fun frame => (decodeFrameV2 frame).toOption.map Prod.snd

/-- **A node of version 1 is exclusive**: every frame of its journal is an event, the events are an
exclusive history, and a ledger in memory mirrors them. -/
structure ExclusiveV1 [Negotiation] (n : Driver.Node BindingLedgerV1) : Prop where
  decodes : (journalled n.log).length = n.log.length
  exclusive : Exclusive ((journalled n.log).map BindingEventV1.pledge)
  reflects : ∀ d, n = .running d → d.state.Reflects ((journalled n.log).map BindingEventV1.pledge)

/-- **A node of version 2 is exclusive**, with scopes of composition, position and RFQ. -/
structure ExclusiveV2 [NegotiationV2] (n : Driver.Node BindingLedgerV2) : Prop where
  decodes : (journalledV2 n.log).length = n.log.length
  exclusive : Exclusive ((journalledV2 n.log).map BindingEventV2.pledge)
  reflects : ∀ d, n = .running d → d.state.Reflects ((journalledV2 n.log).map BindingEventV2.pledge)

/-- Events that replay are reflected by the ledger they lead to. -/
theorem reflects_of_replay [Negotiation] {events : List BindingEventV1} {ledger : BindingLedgerV1}
    (replayed : driverV1.replay events = .ok ledger) :
    ledger.Reflects (events.map BindingEventV1.pledge) := by
  refine replay_invariant (fun events (ledger : BindingLedgerV1) =>
    ledger.Reflects (events.map BindingEventV1.pledge)) BindingLedgerV1.new_reflects ?_ replayed
  intro events ledger event ledger' reflects accepted
  rw [List.map_append]
  exact BindingLedgerV1.apply_reflects reflects accepted

/-- Events that replay are reflected by the ledger they lead to. -/
theorem reflects_of_replayV2 [NegotiationV2] {events : List BindingEventV2} {ledger : BindingLedgerV2}
    (replayed : driverV2.replay events = .ok ledger) :
    ledger.Reflects (events.map BindingEventV2.pledge) := by
  refine replay_invariant (fun events (ledger : BindingLedgerV2) =>
    ledger.Reflects (events.map BindingEventV2.pledge)) BindingLedgerV2.new_reflects ?_ replayed
  intro events ledger event ledger' reflects accepted
  rw [List.map_append]
  exact BindingLedgerV2.apply_reflects reflects accepted

/-- **Exclusive binding**: in every run of either engine over its public calls, with failed appends
and stops of the process anywhere, the journal is an exclusive history and the ledger in memory
mirrors it. -/
theorem bindings_exclusive [Negotiation] [NegotiationV2] :
    (∀ n, Relation.ReflTransGen (driverV1.Step CallV1.run) (.stopped []) n → ExclusiveV1 n) ∧
    (∀ n, Relation.ReflTransGen (driverV2.Step CallV2.run) (.stopped []) n → ExclusiveV2 n) := by
  constructor
  · intro n reached
    obtain ⟨_, ledger, rfl, size, replayed, running⟩ :=
      Driver.reachable_replays driverV1_exact driverV1_recording reached
    have reflects := reflects_of_replay replayed
    exact ⟨size, reflects.exclusive, fun d is_running => running d is_running ▸ reflects⟩
  · intro n reached
    obtain ⟨_, ledger, rfl, size, replayed, running⟩ :=
      Driver.reachable_replays driverV2_exact driverV2_recording reached
    have reflects := reflects_of_replayV2 replayed
    exact ⟨size, reflects.exclusive, fun d is_running => running d is_running ▸ reflects⟩

/-- A negotiation layer that selects nothing. -/
@[reducible] def silent : Negotiation where
  Rfq := Unit
  Quote := Unit
  Facts := Unit
  Market := Unit
  Parts := Unit
  SelectionError := Unit
  AdmissibilityRefusal := Unit
  RfqObjectError := Unit
  rfqId _ := 0
  quoteId _ := 0
  solver _ := 0
  bondReservationId _ := 0
  withBondReserved _ _ := ()
  selectWinner _ _ _ := .error ()
  admissibility _ _ _ _ := .error ()
  termsHash _ _ _ := .error ()

/-- A negotiation layer of version 2 that selects nothing. -/
@[reducible] def silentV2 : NegotiationV2 where
  Rfq := Unit
  Quote := Unit
  Facts := Unit
  Market := Unit
  Faces := Unit
  F6V2Refusal := Unit
  compositionId _ := 0
  position _ := .Upstream
  rfqId _ := 0
  quoteId _ := 0
  solver _ := 0
  bondReservationId _ := 0
  withBondReserved _ _ := ()
  selectWinner _ _ _ := .error ()
  admissibility _ _ _ _ := .error ()
  acceptance _ _ _ _ := .error ()

section Example

attribute [local instance] silent silentV2

/-- A reservation is made, its quote selected and bound. -/
def boundCalls : List (CallV1 × Except EngineError Unit) :=
  [(.apply (.Reserved 1 2 3 4), .ok ()), (.apply (.Selected 2 3 5), .ok ()),
    (.apply (.Bound 2 3 4 6 1 7), .ok ())]

/-- A reservation is made, its quote selected and bound, in one scope. -/
def boundCallsV2 : List (CallV2 × Except EngineErrorV2 Unit) :=
  [(.apply (.Reserved 8 .Upstream 1 2 3 4), .ok ()), (.apply (.Selected 8 .Upstream 2 3 5), .ok ()),
    (.apply (.Bound 8 .Upstream 2 3 4 6 1 7), .ok ())]

/-- Runs in which a quote is bound. -/
theorem bindings_exclusive_bound :
    (Driver.runCalls CallV1.run boundCalls driverV1.fresh).state.bindings.contains 2 = true ∧
    ExclusiveV1 (.running (Driver.runCalls CallV1.run boundCalls driverV1.fresh)) ∧
    (Driver.runCalls CallV2.run boundCallsV2 driverV2.fresh).state.bindings.contains
      (scopedKey 8 .Upstream 2) = true ∧
    ExclusiveV2 (.running (Driver.runCalls CallV2.run boundCallsV2 driverV2.fresh)) :=
  ⟨by decide +kernel, bindings_exclusive.1 _ (Driver.reachable_runCalls _), by decide +kernel,
    bindings_exclusive.2 _ (Driver.reachable_runCalls _)⟩

end Example

/-! ## Opening a journal again -/

/-- The history of version 2 stays far below the bound that opening enforces. -/
theorem faithful_runV2 [NegotiationV2] (calls : List (CallV2 × Except EngineErrorV2 Unit)) :
    driverV2.Faithful (runCalls CallV2.run calls driverV2.fresh) ∧
      (runCalls CallV2.run calls driverV2.fresh).log.length ≤ 3 * maxReservations := by
  have short {d : DurableBindingV2} (faithful : driverV2.Faithful d) :
      d.log.length ≤ 3 * maxReservations := by
    obtain ⟨events, numbered, replayed⟩ := faithful.events
    have := (reflects_of_replayV2 replayed).length_le
    rwa [List.length_map, ← numbered.length_eq] at this
  have faithful : driverV2.Faithful (runCalls CallV2.run calls driverV2.fresh) := by
    induction calls using List.reverseRecOn with
    | nil => exact driverV2.fresh_faithful
    | append_singleton calls call ih =>
      rw [runCalls_snoc]
      refine (driverV2_recording call _).faithful ih ((short ih).trans_lt ?_)
      decide
  exact ⟨faithful, short faithful⟩

/-- **When an accepted history can be opened again.** Every state of a run of version 1 opens again to
itself exactly when each accepted call was made at a revision below the bound on replayable history;
every state of a run of version 2 does. -/
theorem accepted_history_reopens_iff [Negotiation] [NegotiationV2] :
    (∀ calls : List (CallV1 × Except EngineError Unit),
      (∀ before, before <+: calls →
        DurableBinding.openLog (Driver.runCalls CallV1.run before driverV1.fresh).log =
          .ok (Driver.runCalls CallV1.run before driverV1.fresh)) ↔
      ∀ before call, before ++ [call] <+: calls →
        (CallV1.run call (Driver.runCalls CallV1.run before driverV1.fresh)).1 = .ok () →
        (Driver.runCalls CallV1.run before driverV1.fresh).revision.toNat < maxJournalFrames) ∧
    ∀ calls : List (CallV2 × Except EngineErrorV2 Unit),
      DurableBindingV2.openLog (Driver.runCalls CallV2.run calls driverV2.fresh).log =
        .ok (Driver.runCalls CallV2.run calls driverV2.fresh) := by
  constructor
  · intro calls
    exact Driver.reopens_iff driverV1_exact driverV1_recording
      (show maxJournalFrames < 2 ^ 64 - 1 by decide) calls
  · intro calls
    obtain ⟨faithful, short⟩ := faithful_runV2 calls
    have below : 3 * maxReservations ≤ maxJournalFrames := by decide
    exact (Driver.openLog_eq_iff driverV2_exact faithful).mpr (short.trans below)

section Example

attribute [local instance] silent silentV2

/-- Selections for `n` different RFQs. -/
def selectionCalls (n : Nat) : List (CallV1 × Except EngineError Unit) :=
  (List.range n).map fun i => (.apply (.Selected (BitVec.ofNat _ i) 0 0), .ok ())

/-- The engine after so many selections. -/
def afterSelections (n : Nat) : DurableBinding :=
  Driver.runCalls CallV1.run (selectionCalls n) driverV1.fresh

/-- What is recorded after `n` selections. -/
structure Selected (n : Nat) : Prop where
  length : (afterSelections n).log.length = n
  revision : (afterSelections n).revision.toNat = n
  free : ∀ k : Digest32, n ≤ k.toNat → (afterSelections n).state.selections[k]? = none

/-- A selection for an RFQ without one is accepted and recorded. -/
theorem run_selected {d : DurableBinding} {k : Digest32} (free : d.state.selections[k]? = none)
    (room : d.revision.toNat < 2 ^ 64 - 1) :
    ∃ revision : UInt64, revision.toNat = d.revision.toNat + 1 ∧
      CallV1.run (.apply (.Selected k 0 0), .ok ()) d =
        (.ok (), ⟨d.log ++ [encodeFrame d.revision (.Selected k 0 0)],
          { d.state with selections := d.state.selections.insert k ⟨0, 0⟩ }, revision⟩) := by
  have accepted : d.state.apply (.Selected k 0 0) =
      .ok { d.state with selections := d.state.selections.insert k ⟨0, 0⟩ } := by
    simp only [BindingLedgerV1.apply, bind_eq_ok, rejectIf_eq_ok, pure_eq_ok]
    exact ⟨(), by simpa using free, trivial⟩
  obtain ⟨revision, counted⟩ : ∃ revision, checkedAdd d.revision 1 = some revision := by
    rw [← Option.ne_none_iff_exists', Ne, checkedAdd_eq_none]
    change ¬ 2 ^ 64 ≤ d.revision.toNat + 1
    omega
  refine ⟨revision, checkedAdd_eq_some.mp counted, ?_⟩
  simp only [CallV1.run, DurableBinding.apply, record]
  rw [show driverV1.apply d.state (.Selected k 0 0) = _ from accepted]
  simp only [counted]
  rfl

theorem selectionCalls_succ (n : Nat) : selectionCalls (n + 1) =
    selectionCalls n ++ [(.apply (.Selected (BitVec.ofNat _ n) 0 0), .ok ())] := by
  simp [selectionCalls, List.range_succ]

theorem toNat_rfq {n : Nat} (bound : n ≤ 2 ^ 32) : (BitVec.ofNat (8 * 32) n).toNat = n := by
  rw [BitVec.toNat_ofNat]
  exact Nat.mod_eq_of_lt (bound.trans_lt (by decide))

theorem selected_of_le {n : Nat} (bound : n ≤ 2 ^ 32) : Selected n := by
  induction n with
  | zero => exact ⟨rfl, rfl, fun k _ => Table.getElem?_empty k⟩
  | succ n ih =>
    obtain ⟨length, revision, free⟩ := ih (by omega)
    obtain ⟨revision', counted, run⟩ :=
      run_selected (free _ (toNat_rfq (by omega)).ge) (by rw [revision]; omega)
    have next : afterSelections (n + 1) = (CallV1.run
        (.apply (.Selected (BitVec.ofNat _ n) 0 0), .ok ()) (afterSelections n)).2 := by
      rw [afterSelections, selectionCalls_succ, runCalls_snoc, afterSelections]
    rw [run] at next
    constructor
    · rw [next]
      simp [length]
    · rw [next]
      simp [counted, revision]
    · intro k above
      rw [next]
      have other : BitVec.ofNat (8 * 32) n ≠ k := by
        rintro rfl
        rw [toNat_rfq (by omega)] at above
        omega
      rw [Table.getElem?_insert, if_neg other]
      exact free k (by omega)

/-- A journal beyond the bound on replayable history is refused. -/
theorem openLog_of_long {log : List Bytes} (long : maxJournalFrames < log.length) :
    DurableBinding.openLog log = .error .JournalTooLarge := by
  rw [DurableBinding.openLog, openLog, rejectIf_of _ (show log.length > driverV1.cap from long)]
  rfl

/-- **A history that was accepted and cannot be opened again**: selections for one RFQ more than the
bound on replayable history. -/
theorem selections_not_reopened :
    (∀ n ≤ maxJournalFrames, (CallV1.run (.apply (.Selected (BitVec.ofNat _ n) 0 0), .ok ())
      (afterSelections n)).1 = .ok ()) ∧
    DurableBinding.openLog (afterSelections (maxJournalFrames + 1)).log =
      .error .JournalTooLarge := by
  have small : maxJournalFrames < 2 ^ 32 := by decide
  constructor
  · intro n bound
    have below : n ≤ 2 ^ 32 := by omega
    obtain ⟨-, revision, free⟩ := selected_of_le below
    obtain ⟨_, -, run⟩ := run_selected (free _ (toNat_rfq below).ge) (by rw [revision]; omega)
    exact congrArg Prod.fst run
  · have selected : Selected (maxJournalFrames + 1) := selected_of_le small
    exact openLog_of_long (Nat.lt_of_lt_of_eq (Nat.lt_succ_self _) selected.length.symm)

end Example

end DomProtocol.F6Engine
