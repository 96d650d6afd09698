import DomProtocol.Lib.Exclusive
import DomProtocol.Lib.Octets
import DomProtocol.Lib.Table

/-! # The exclusive reservation ledger (`f6-engine`)

**`BindingLedgerV1.apply`** and **`BindingLedgerV2.apply`** decide one journaled event: a solver
reserves bond capacity for one quote, the selection of an RFQ is recorded, the selected quote is
bound and consumes its reservation, a losing reservation is released. Version 2 scopes every event
by a composition and a settlement position, refuses zero identifiers and accepts a selection only
for a quote with an active reservation. Both refine one abstract history of pledges
(`apply_reflects`). -/

namespace DomProtocol.F6Engine

open Table

/-- A 32-byte digest. -/
abbrev Digest32 := Octets 32

/-- A participant's canonical identifier. -/
abbrev ParticipantId := Octets 32

/-- Hard cap on the reservations one ledger tracks. -/
def maxReservations : Nat := 4096

/-! ## Version 1 -/

/-- One journaled ledger event. -/
inductive BindingEventV1 where
  | Reserved (reservationId rfqId quoteId : Digest32) (solver : ParticipantId)
  | Bound (rfqId quoteId : Digest32) (solver acceptedBy : ParticipantId)
      (reservationId termsHash : Digest32)
  | Released (reservationId : Digest32)
  | Selected (rfqId winningQuote inputsDigest : Digest32)
  deriving DecidableEq, Repr

/-- Named refusals of the ledger. -/
inductive BindingRefusal where
  | ReservationInUse
  | ReservationSpent
  | ReservationUnknown
  | ReservationQuoteMismatch
  | ReservationHolderMismatch
  | RfqAlreadyBound
  | ReservationAlreadyBound
  | TooManyReservations
  | RfqAlreadySelected
  | BindWithoutSelection
  | SelectionQuoteMismatch
  deriving DecidableEq, Repr

/-- State of one reservation. -/
inductive ReservationState where
  | Active (rfqId quoteId : Digest32) (solver : ParticipantId)
  | Bound
  | Spent
  deriving DecidableEq, Repr

/-- One completed binding. -/
structure BoundRecordV1 where
  quoteId : Digest32
  solver : ParticipantId
  acceptedBy : ParticipantId
  reservationId : Digest32
  termsHash : Digest32
  deriving DecidableEq, Repr

/-- One recorded selection. -/
structure SelectedRecordV1 where
  winningQuote : Digest32
  inputsDigest : Digest32
  deriving DecidableEq, Repr

/-- The pure, replayable ledger. -/
structure BindingLedgerV1 where
  reservations : Table Digest32 ReservationState
  bindings : Table Digest32 BoundRecordV1
  selections : Table Digest32 SelectedRecordV1

namespace BindingLedgerV1

/-- A fresh, empty ledger. -/
def new : BindingLedgerV1 := ⟨∅, ∅, ∅⟩

/-- Whether a reservation is active and committed to exactly this RFQ, quote and solver. -/
def reservationBacks (ledger : BindingLedgerV1) (reservationId rfqId quoteId : Digest32)
    (solver : ParticipantId) : Bool :=
  match ledger.reservations[reservationId]? with
  | some (.Active r q s) => r == rfqId && q == quoteId && s == solver
  | _ => false

/-- The checks of a binding, in the source's order. -/
def checkBound (ledger : BindingLedgerV1) (rfqId quoteId : Digest32) (solver : ParticipantId)
    (reservationId : Digest32) : Except BindingRefusal Unit := do
  rejectIf (ledger.bindings.contains rfqId) .RfqAlreadyBound
  match ledger.selections[rfqId]? with
  | none => .error .BindWithoutSelection
  | some selected =>
    if selected.winningQuote ≠ quoteId then .error .SelectionQuoteMismatch
    else
      match ledger.reservations[reservationId]? with
      | none => .error .ReservationUnknown
      | some .Spent => .error .ReservationSpent
      | some .Bound => .error .ReservationAlreadyBound
      | some (.Active r q s) => do
        rejectIf (r ≠ rfqId ∨ q ≠ quoteId) .ReservationQuoteMismatch
        rejectIf (s ≠ solver) .ReservationHolderMismatch

/-- Apply one event. -/
def apply (ledger : BindingLedgerV1) : BindingEventV1 → Except BindingRefusal BindingLedgerV1
  | .Reserved reservationId rfqId quoteId solver =>
    match ledger.reservations[reservationId]? with
    | some (.Active ..) => .error .ReservationInUse
    | some .Bound => .error .ReservationInUse
    | some .Spent => .error .ReservationSpent
    | none => do
      rejectIf (ledger.reservations.size ≥ maxReservations) .TooManyReservations
      pure { ledger with
        reservations := ledger.reservations.insert reservationId (.Active rfqId quoteId solver) }
  | .Bound rfqId quoteId solver acceptedBy reservationId termsHash => do
    ledger.checkBound rfqId quoteId solver reservationId
    pure { ledger with
      reservations := ledger.reservations.insert reservationId .Bound
      bindings := ledger.bindings.insert rfqId
        ⟨quoteId, solver, acceptedBy, reservationId, termsHash⟩ }
  | .Released reservationId =>
    match ledger.reservations[reservationId]? with
    | none => .error .ReservationUnknown
    | some .Spent => .error .ReservationSpent
    | some .Bound => .error .ReservationAlreadyBound
    | some (.Active ..) =>
      .ok { ledger with reservations := ledger.reservations.insert reservationId .Spent }
  | .Selected rfqId winningQuote inputsDigest => do
    rejectIf (ledger.selections.contains rfqId) .RfqAlreadySelected
    pure { ledger with
      selections := ledger.selections.insert rfqId ⟨winningQuote, inputsDigest⟩ }

end BindingLedgerV1

/-! ## Version 2 -/

/-- Position of a settlement in a composed route. -/
inductive SettlementPositionV2 where
  | Upstream
  | Downstream
  deriving DecidableEq, Repr

/-- The discriminant of a position. -/
def SettlementPositionV2.toU8 : SettlementPositionV2 → UInt8
  | .Upstream => 1
  | .Downstream => 2

/-- One event. Every variant carries its exact composition scope. -/
inductive BindingEventV2 where
  | Reserved (compositionId : Digest32) (position : SettlementPositionV2)
      (reservationId rfqId quoteId : Digest32) (solver : ParticipantId)
  | Selected (compositionId : Digest32) (position : SettlementPositionV2)
      (rfqId winningQuote inputsDigest : Digest32)
  | Bound (compositionId : Digest32) (position : SettlementPositionV2) (rfqId quoteId : Digest32)
      (solver acceptedBy : ParticipantId) (reservationId termsHash : Digest32)
  | Released (compositionId : Digest32) (position : SettlementPositionV2)
      (reservationId rfqId quoteId : Digest32) (solver : ParticipantId)
  deriving DecidableEq, Repr

/-- Named refusals of the ledger. -/
inductive BindingRefusalV2 where
  | InvalidScope
  | ReservationInUse
  | ReservationSpent
  | ReservationUnknown
  | ReservationBindingMismatch
  | ReservationHolderMismatch
  | ReservationAlreadyBound
  | RfqAlreadySelected
  | RfqAlreadyBound
  | BindWithoutSelection
  | SelectionQuoteMismatch
  | SelectionWithoutReservation
  | TooManyReservations
  deriving DecidableEq, Repr

/-- What an active reservation is committed to. -/
structure ActiveReservationV2 where
  compositionId : Digest32
  position : SettlementPositionV2
  rfqId : Digest32
  quoteId : Digest32
  solver : ParticipantId
  deriving DecidableEq, Repr

/-- State of one reservation. -/
inductive ReservationStateV2 where
  | Active (active : ActiveReservationV2)
  | Bound
  | Spent
  deriving DecidableEq, Repr

/-- One completed binding. -/
structure BoundRecordV2 where
  compositionId : Digest32
  position : SettlementPositionV2
  quoteId : Digest32
  solver : ParticipantId
  acceptedBy : ParticipantId
  reservationId : Digest32
  termsHash : Digest32
  deriving DecidableEq, Repr

/-- One recorded selection. -/
structure SelectedRecordV2 where
  winningQuote : Digest32
  inputsDigest : Digest32
  deriving DecidableEq, Repr

/-- Composition, position and RFQ. -/
@[ext] structure ScopedRfqKeyV2 where
  compositionId : Digest32
  position : UInt8
  rfqId : Digest32
  deriving DecidableEq, Repr

instance : Ord ScopedRfqKeyV2 :=
  ⟨compareLex (compareOn ScopedRfqKeyV2.compositionId)
    (compareLex (compareOn ScopedRfqKeyV2.position) (compareOn ScopedRfqKeyV2.rfqId))⟩

instance : Std.TransOrd ScopedRfqKeyV2 :=
  inferInstanceAs (Std.TransCmp (compareLex (compareOn ScopedRfqKeyV2.compositionId)
    (compareLex (compareOn ScopedRfqKeyV2.position) (compareOn ScopedRfqKeyV2.rfqId))))

instance : Std.LawfulEqOrd ScopedRfqKeyV2 := lawfulEqOrd_of_compare fun key key' => by
  change compareLex _ _ key key' = .eq ↔ key = key'
  simp [compareLex, compareOn, ScopedRfqKeyV2.ext_iff]

/-- The key of an RFQ in its scope. -/
def scopedKey (compositionId : Digest32) (position : SettlementPositionV2) (rfqId : Digest32) :
    ScopedRfqKeyV2 := ⟨compositionId, position.toU8, rfqId⟩

/-- The scope of an active reservation. -/
def ActiveReservationV2.key (active : ActiveReservationV2) : ScopedRfqKeyV2 :=
  scopedKey active.compositionId active.position active.rfqId

/-- Pure replayable binding state. -/
structure BindingLedgerV2 where
  reservations : Table Digest32 ReservationStateV2
  bindings : Table ScopedRfqKeyV2 BoundRecordV2
  selections : Table ScopedRfqKeyV2 SelectedRecordV2

/-- Refuse an event that contains a zero identifier. -/
def validateEvent (event : BindingEventV2) : Except BindingRefusalV2 Unit :=
  let fields := match event with
    | .Reserved compositionId _ reservationId rfqId quoteId solver =>
      [compositionId, reservationId, rfqId, quoteId, solver]
    | .Selected compositionId _ rfqId winningQuote inputsDigest =>
      [compositionId, rfqId, winningQuote, inputsDigest]
    | .Bound compositionId _ rfqId quoteId solver acceptedBy reservationId termsHash =>
      [compositionId, rfqId, quoteId, solver, acceptedBy, reservationId, termsHash]
    | .Released compositionId _ reservationId rfqId quoteId solver =>
      [compositionId, reservationId, rfqId, quoteId, solver]
  rejectIf (fields.contains 0) .InvalidScope

namespace BindingLedgerV2

/-- A fresh, empty ledger. -/
def new : BindingLedgerV2 := ⟨∅, ∅, ∅⟩

/-- Whether an active reservation backs the complete scope. -/
def reservationBacks (ledger : BindingLedgerV2) (reservationId compositionId : Digest32)
    (position : SettlementPositionV2) (rfqId quoteId : Digest32) (solver : ParticipantId) : Bool :=
  ledger.reservations[reservationId]? ==
    some (.Active ⟨compositionId, position, rfqId, quoteId, solver⟩)

/-- Whether some active reservation is committed to a quote in its scope. -/
def quoteReserved (ledger : BindingLedgerV2) (compositionId : Digest32)
    (position : SettlementPositionV2) (rfqId winningQuote : Digest32) : Bool :=
  ledger.reservations.toList.any fun entry =>
    match entry.2 with
    | .Active active => active.compositionId == compositionId && active.position == position &&
        active.rfqId == rfqId && active.quoteId == winningQuote
    | _ => false

/-- The checks of the reservation an event consumes, in the source's order. -/
def checkHeld (ledger : BindingLedgerV2) (reservationId : Digest32)
    (expected : ActiveReservationV2) : Except BindingRefusalV2 Unit :=
  match ledger.reservations[reservationId]? with
  | none => .error .ReservationUnknown
  | some .Spent => .error .ReservationSpent
  | some .Bound => .error .ReservationAlreadyBound
  | some (.Active active) => do
    rejectIf (active.solver ≠ expected.solver) .ReservationHolderMismatch
    rejectIf (active ≠ expected) .ReservationBindingMismatch

/-- The checks of the selection a binding needs. -/
def checkSelected (ledger : BindingLedgerV2) (key : ScopedRfqKeyV2) (quoteId : Digest32) :
    Except BindingRefusalV2 Unit :=
  match ledger.selections[key]? with
  | none => .error .BindWithoutSelection
  | some selected => rejectIf (selected.winningQuote ≠ quoteId) .SelectionQuoteMismatch

/-- Apply one event whose identifiers are valid. -/
def applyValidated (ledger : BindingLedgerV2) :
    BindingEventV2 → Except BindingRefusalV2 BindingLedgerV2
  | .Reserved compositionId position reservationId rfqId quoteId solver =>
    match ledger.reservations[reservationId]? with
    | some (.Active _) => .error .ReservationInUse
    | some .Bound => .error .ReservationInUse
    | some .Spent => .error .ReservationSpent
    | none => do
      rejectIf (ledger.reservations.size ≥ maxReservations) .TooManyReservations
      pure { ledger with
        reservations := ledger.reservations.insert reservationId
          (.Active ⟨compositionId, position, rfqId, quoteId, solver⟩) }
  | .Selected compositionId position rfqId winningQuote inputsDigest => do
    let key := scopedKey compositionId position rfqId
    rejectIf (ledger.selections.contains key) .RfqAlreadySelected
    rejectIf (¬ ledger.quoteReserved compositionId position rfqId winningQuote)
      .SelectionWithoutReservation
    pure { ledger with
      selections := ledger.selections.insert key ⟨winningQuote, inputsDigest⟩ }
  | .Bound compositionId position rfqId quoteId solver acceptedBy reservationId termsHash => do
    let key := scopedKey compositionId position rfqId
    rejectIf (ledger.bindings.contains key) .RfqAlreadyBound
    ledger.checkSelected key quoteId
    ledger.checkHeld reservationId ⟨compositionId, position, rfqId, quoteId, solver⟩
    pure { ledger with
      reservations := ledger.reservations.insert reservationId .Bound
      bindings := ledger.bindings.insert key
        ⟨compositionId, position, quoteId, solver, acceptedBy, reservationId, termsHash⟩ }
  | .Released compositionId position reservationId rfqId quoteId solver => do
    ledger.checkHeld reservationId ⟨compositionId, position, rfqId, quoteId, solver⟩
    pure { ledger with reservations := ledger.reservations.insert reservationId .Spent }

/-- Apply one event. -/
def apply (ledger : BindingLedgerV2) (event : BindingEventV2) :
    Except BindingRefusalV2 BindingLedgerV2 := do
  validateEvent event
  ledger.applyValidated event

end BindingLedgerV2

/-! ## The history behind a ledger -/

/-- The pledge an event makes. -/
def BindingEventV1.pledge : BindingEventV1 → Pledge Digest32 Digest32 Digest32 ParticipantId
  | .Reserved reservationId rfqId quoteId solver => .reserved reservationId rfqId quoteId solver
  | .Bound rfqId quoteId solver _ reservationId _ => .bound rfqId quoteId solver reservationId
  | .Released reservationId => .released reservationId
  | .Selected rfqId winningQuote _ => .selected rfqId winningQuote

/-- The pledge an event makes, scoped by composition and position. -/
def BindingEventV2.pledge :
    BindingEventV2 → Pledge Digest32 ScopedRfqKeyV2 Digest32 ParticipantId
  | .Reserved compositionId position reservationId rfqId quoteId solver =>
    .reserved reservationId (scopedKey compositionId position rfqId) quoteId solver
  | .Selected compositionId position rfqId winningQuote _ =>
    .selected (scopedKey compositionId position rfqId) winningQuote
  | .Bound compositionId position rfqId quoteId solver _ reservationId _ =>
    .bound (scopedKey compositionId position rfqId) quoteId solver reservationId
  | .Released _ _ reservationId _ _ _ => .released reservationId

/-- What a reservation's state shows. -/
def ReservationState.holding : ReservationState → Holding Digest32 Digest32 ParticipantId
  | .Active rfqId quoteId solver => .active rfqId quoteId solver
  | .Bound => .bound
  | .Spent => .spent

/-- What a reservation's state shows. -/
def ReservationStateV2.holding : ReservationStateV2 → Holding ScopedRfqKeyV2 Digest32 ParticipantId
  | .Active active => .active active.key active.quoteId active.solver
  | .Bound => .bound
  | .Spent => .spent

namespace BindingLedgerV1

/-- **The ledger mirrors a history** of pledges. -/
structure Reflects (ledger : BindingLedgerV1)
    (h : List (Pledge Digest32 Digest32 Digest32 ParticipantId)) : Prop where
  exclusive : Exclusive h
  mirrors : Mirrors (fun r => ledger.reservations[r]?.map ReservationState.holding)
    (fun k => ledger.selections[k]?.map SelectedRecordV1.winningQuote)
    (fun k => ledger.bindings[k]?.map fun b => (b.quoteId, b.solver, b.reservationId)) h

theorem new_reflects : new.Reflects [] where
  exclusive := .nil
  mirrors := by simpa [new] using Mirrors.nil

/-- What a binding finds in the ledger. -/
theorem checkBound_eq_ok {ledger : BindingLedgerV1} {rfqId quoteId : Digest32}
    {solver : ParticipantId} {reservationId : Digest32} {u : Unit}
    (h : ledger.checkBound rfqId quoteId solver reservationId = .ok u) :
    ledger.bindings[rfqId]? = none ∧
      (∃ selected, ledger.selections[rfqId]? = some selected ∧ selected.winningQuote = quoteId) ∧
      ledger.reservations[reservationId]? = some (.Active rfqId quoteId solver) := by
  simp only [checkBound, bind_eq_ok, rejectIf_eq_ok] at h
  obtain ⟨_, unbound, h⟩ := h
  split at h
  · cases h
  rename_i selected found
  split at h
  · cases h
  rename_i winner
  split at h <;> try cases h
  rename_i r q s held
  simp only [bind_eq_ok, rejectIf_eq_ok] at h
  obtain ⟨_, quote, holder⟩ := h
  simp only [not_or, not_not] at quote holder winner
  obtain ⟨rfl, rfl⟩ := quote
  exact ⟨by simpa using unbound, ⟨selected, found, winner⟩, holder ▸ held⟩

/-- **An accepted event is an allowed pledge**, and the ledger mirrors the history with it. -/
theorem apply_reflects {ledger ledger' : BindingLedgerV1} {event : BindingEventV1}
    {h : List (Pledge Digest32 Digest32 Digest32 ParticipantId)} (reflects : ledger.Reflects h)
    (accepted : ledger.apply event = .ok ledger') : ledger'.Reflects (h ++ [event.pledge]) := by
  have mirrors := reflects.mirrors
  cases event with
  | Reserved reservationId rfqId quoteId solver =>
    simp only [apply] at accepted
    split at accepted <;> try cases accepted
    rename_i free
    simp only [bind_eq_ok, rejectIf_eq_ok, pure_eq_ok] at accepted
    obtain ⟨_, -, rfl⟩ := accepted
    have free' : ledger.reservations[reservationId]?.map ReservationState.holding = none := by
      simp [free]
    refine ⟨reflects.exclusive.snoc (mirrors.allows_reserved _ _ _ free'), ?_⟩
    rw [getElem?_insert_map]
    exact mirrors.reserve _ _ _ free'
  | Bound rfqId quoteId solver acceptedBy reservationId termsHash =>
    simp only [apply, bind_eq_ok, pure_eq_ok] at accepted
    obtain ⟨_, checked, rfl⟩ := accepted
    obtain ⟨unbound, ⟨selected, found, winner⟩, held⟩ := checkBound_eq_ok checked
    have held' : ledger.reservations[reservationId]?.map ReservationState.holding =
        some (.active rfqId quoteId solver) := by simp [held, ReservationState.holding]
    refine ⟨reflects.exclusive.snoc (mirrors.allows_bound (by simp [unbound])
      (by simp [found, winner]) held'), ?_⟩
    rw [getElem?_insert_map, getElem?_insert_map]
    exact mirrors.bind (by simp [unbound]) held'
  | Released reservationId =>
    simp only [apply] at accepted
    split at accepted <;> cases accepted
    rename_i rfqId quoteId solver held
    have held' : ledger.reservations[reservationId]?.map ReservationState.holding =
        some (.active rfqId quoteId solver) := by simp [held, ReservationState.holding]
    refine ⟨reflects.exclusive.snoc (mirrors.allows_released held'), ?_⟩
    rw [getElem?_insert_map]
    exact mirrors.release held'
  | Selected rfqId winningQuote inputsDigest =>
    simp only [apply, bind_eq_ok, rejectIf_eq_ok, pure_eq_ok] at accepted
    obtain ⟨_, free, rfl⟩ := accepted
    have free' : ledger.selections[rfqId]?.map SelectedRecordV1.winningQuote = none := by
      simpa using free
    refine ⟨reflects.exclusive.snoc (mirrors.allows_selected _ free'), ?_⟩
    rw [getElem?_insert_map]
    exact mirrors.select _ free'

end BindingLedgerV1

namespace BindingLedgerV2

variable {ledger : BindingLedgerV2} {u : Unit}
  {h : List (Pledge Digest32 ScopedRfqKeyV2 Digest32 ParticipantId)}

/-- **The ledger mirrors a history** of pledges, every selection of which is backed by a
reservation, and counts its reservations. -/
structure Reflects (ledger : BindingLedgerV2)
    (h : List (Pledge Digest32 ScopedRfqKeyV2 Digest32 ParticipantId)) : Prop where
  exclusive : Exclusive h
  mirrors : Mirrors (fun r => ledger.reservations[r]?.map ReservationStateV2.holding)
    (fun k => ledger.selections[k]?.map SelectedRecordV2.winningQuote)
    (fun k => ledger.bindings[k]?.map fun b => (b.quoteId, b.solver, b.reservationId)) h
  backed : Backed h
  size : ledger.reservations.size = (h.filterMap Pledge.reserves).length
  bounded : ledger.reservations.size ≤ maxReservations

theorem new_reflects : new.Reflects [] where
  exclusive := .nil
  mirrors := by simpa [new] using Mirrors.nil
  backed := fun _ found => found
  size := by simp [new]
  bounded := by simp [new]

theorem checkHeld_eq_ok {reservationId : Digest32} {expected : ActiveReservationV2}
    (h : ledger.checkHeld reservationId expected = .ok u) :
    ledger.reservations[reservationId]? = some (.Active expected) := by
  unfold checkHeld at h
  split at h <;> try cases h
  rename_i active held
  simp only [bind_eq_ok, rejectIf_eq_ok, not_not] at h
  obtain ⟨_, -, rfl⟩ := h
  exact held

theorem holding_of_active {reservationId : Digest32} {active : ActiveReservationV2}
    (held : ledger.reservations[reservationId]? = some (.Active active)) :
    ledger.reservations[reservationId]?.map ReservationStateV2.holding =
      some (.active active.key active.quoteId active.solver) := by
  rw [held]
  rfl

theorem checkSelected_eq_ok {key : ScopedRfqKeyV2} {quoteId : Digest32}
    (h : ledger.checkSelected key quoteId = .ok u) :
    ∃ selected, ledger.selections[key]? = some selected ∧ selected.winningQuote = quoteId := by
  unfold checkSelected at h
  split at h
  · cases h
  · rename_i selected found
    rw [rejectIf_eq_ok, not_not] at h
    exact ⟨selected, found, h⟩

/-- A quote that is found reserved has an active reservation in its scope. -/
theorem exists_of_quoteReserved {compositionId rfqId winningQuote : Digest32}
    {position : SettlementPositionV2}
    (h : ledger.quoteReserved compositionId position rfqId winningQuote = true) :
    ∃ (reservationId : Digest32) (active : ActiveReservationV2),
      ledger.reservations[reservationId]? = some (.Active active) ∧
      active.key = scopedKey compositionId position rfqId ∧ active.quoteId = winningQuote := by
  simp only [quoteReserved, List.any_eq_true] at h
  obtain ⟨⟨reservationId, state⟩, found, matching⟩ := h
  split at matching
  · rename_i active is_active
    simp only [Bool.and_eq_true, beq_iff_eq] at matching
    obtain ⟨⟨⟨composition, position⟩, rfq⟩, quote⟩ := matching
    refine ⟨reservationId, active, ?_, ?_, quote⟩
    · rw [← lookup_toList]
      rw [lookup_eq_some (nodup_keys_toList _)]
      simpa [← is_active] using found
    · rw [ActiveReservationV2.key, composition, position, rfq]
  · cases matching

/-- **An accepted event is an allowed pledge**, and the ledger mirrors the history with it. -/
theorem apply_reflects {ledger' : BindingLedgerV2} {event : BindingEventV2}
    (reflects : ledger.Reflects h) (accepted : ledger.apply event = .ok ledger') :
    ledger'.Reflects (h ++ [event.pledge]) := by
  have mirrors := reflects.mirrors
  simp only [apply, bind_eq_ok] at accepted
  obtain ⟨_, -, accepted⟩ := accepted
  cases event with
  | Reserved compositionId position reservationId rfqId quoteId solver =>
    simp only [applyValidated] at accepted
    split at accepted <;> try cases accepted
    rename_i free
    simp only [bind_eq_ok, rejectIf_eq_ok, pure_eq_ok] at accepted
    obtain ⟨_, room, rfl⟩ := accepted
    have free' : ledger.reservations[reservationId]?.map ReservationStateV2.holding = none := by
      simp [free]
    constructor
    · exact reflects.exclusive.snoc (mirrors.allows_reserved _ _ _ free')
    · rw [getElem?_insert_map]
      exact mirrors.reserve _ _ _ free'
    · exact reflects.backed.snoc fun k found => by cases found
    · simp [size_insert_new _ free, reflects.size, BindingEventV2.pledge, Pledge.reserves]
    · rw [size_insert_new _ free]
      omega
  | Selected compositionId position rfqId winningQuote inputsDigest =>
    simp only [applyValidated, bind_eq_ok, rejectIf_eq_ok, pure_eq_ok, not_not] at accepted
    obtain ⟨_, free, _, reserved, rfl⟩ := accepted
    have free' : ledger.selections[scopedKey compositionId position rfqId]?.map
        SelectedRecordV2.winningQuote = none := by simpa using free
    obtain ⟨reservationId, active, held, key, -⟩ := exists_of_quoteReserved reserved
    have made := ((mirrors.active reservationId active.key active.quoteId active.solver).mp
      (holding_of_active held)).1
    constructor
    · exact reflects.exclusive.snoc (mirrors.allows_selected _ free')
    · rw [getElem?_insert_map]
      exact mirrors.select _ free'
    · refine reflects.backed.snoc fun k found => ?_
      cases found
      exact .inl (mem_backs.mpr ⟨_, _, _, key ▸ made⟩)
    · simp [reflects.size, BindingEventV2.pledge, Pledge.reserves]
    · exact reflects.bounded
  | Bound compositionId position rfqId quoteId solver acceptedBy reservationId termsHash =>
    simp only [applyValidated, bind_eq_ok, rejectIf_eq_ok, pure_eq_ok] at accepted
    obtain ⟨_, unbound, _, selected, _, held, rfl⟩ := accepted
    obtain ⟨selected, found, winner⟩ := checkSelected_eq_ok selected
    have held := checkHeld_eq_ok held
    have unbound' : ledger.bindings[scopedKey compositionId position rfqId]? = none := by
      simpa using unbound
    have held' := holding_of_active held
    constructor
    · exact reflects.exclusive.snoc (mirrors.allows_bound (by simp [unbound'])
        (by simp [found, winner]) held')
    · rw [getElem?_insert_map, getElem?_insert_map]
      exact mirrors.bind (by simp [unbound']) held'
    · exact reflects.backed.snoc fun k found => by cases found
    · simp [size_insert_old _ held, reflects.size, BindingEventV2.pledge, Pledge.reserves]
    · rw [size_insert_old _ held]
      exact reflects.bounded
  | Released compositionId position reservationId rfqId quoteId solver =>
    simp only [applyValidated, bind_eq_ok, pure_eq_ok] at accepted
    obtain ⟨_, held, rfl⟩ := accepted
    have held := checkHeld_eq_ok held
    have held' := holding_of_active held
    constructor
    · exact reflects.exclusive.snoc (mirrors.allows_released held')
    · rw [getElem?_insert_map]
      exact mirrors.release held'
    · exact reflects.backed.snoc fun k found => by cases found
    · simp [size_insert_old _ held, reflects.size, BindingEventV2.pledge, Pledge.reserves]
    · rw [size_insert_old _ held]
      exact reflects.bounded

/-- **A history of version 2 has at most three events for each reservation.** -/
theorem Reflects.length_le (reflects : ledger.Reflects h) : h.length ≤ 3 * maxReservations := by
  have short := reflects.exclusive.length_le reflects.backed
  rw [← reflects.size] at short
  have := reflects.bounded
  omega

end BindingLedgerV2

end DomProtocol.F6Engine
