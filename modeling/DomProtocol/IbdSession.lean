import DomProtocol.IbdSnapshot
import DomProtocol.Transparent

/-! # Sessions of the initial block download (`dom-chain`, `ibd.rs`)

**`IbdState`** is the controller of one download session with a peer: its phase, four height cursors
and the retry budget. **`IbdState.step`** runs one of its operations (**`IbdOp`**), and
**`persistIbdState`** writes a session into the metadata.

The loader documents an invariant of the controller, `IbdState.Ordered`, that the operations do not
keep by themselves. `IbdState.Allows` is the condition under which one does, and leaves a completed
or failed session as it is; `session_sound_iff` characterises the runs that are sound. -/

namespace DomProtocol

section Sessions

variable [Primitives]

/-- What the caller should do after a transition. -/
inductive IbdControl where
  | Continue
  | Retry
  | Fail
  | Complete
  deriving DecidableEq, Repr

/-- What the node should do after a batch of headers. -/
inductive IbdAction where
  | RequestMoreHeaders (height : UInt64)
  | StartBlockDownload
  deriving DecidableEq, Repr

/-- **The session controller.** -/
structure IbdState where
  phase : IbdPhase
  startHeight : UInt64
  headersHeight : UInt64
  blocksHeight : UInt64
  bestPeerHeight : UInt64
  pendingBlocks : List Hash256
  retryAttempts : UInt8
  lastProgressHeight : UInt64
  lastInterruption : Option IbdInterruption
  deriving DecidableEq

namespace IbdState

/-- A session from a height towards the height of a peer. -/
def new (startHeight bestPeerHeight : UInt64) : IbdState where
  phase := if bestPeerHeight ≤ startHeight then .Completed else .Idle
  startHeight := startHeight
  headersHeight := startHeight
  blocksHeight := startHeight
  bestPeerHeight := bestPeerHeight
  pendingBlocks := []
  retryAttempts := 0
  lastProgressHeight := startHeight
  lastInterruption := none

/-- Restore a session from a snapshot. -/
def fromPersisted (snapshot : PersistedIbdState) : Result IbdState := do
  rejectIf (snapshot.isRoundResumable = false)
    (.policyRejected "persisted IBD snapshot has invalid round cursor")
  pure
    { phase := snapshot.phase
      startHeight := snapshot.startHeight
      headersHeight := snapshot.headersHeight
      blocksHeight := snapshot.blocksHeight
      bestPeerHeight := snapshot.bestPeerHeight
      pendingBlocks := snapshot.pendingBlocks
      retryAttempts := snapshot.retryAttempts
      lastProgressHeight := snapshot.lastProgressHeight
      lastInterruption := snapshot.lastInterruption }

def isComplete (ibd : IbdState) : Bool := ibd.phase = .Completed

def isFailed (ibd : IbdState) : Bool := ibd.phase = .Failed

/-- Whether the session has ended. -/
def isTerminal (ibd : IbdState) : Bool := ibd.isComplete || ibd.isFailed

/-- Begin the session or its next round. -/
def beginSession (ibd : IbdState) : IbdState × IbdControl :=
  if ibd.bestPeerHeight ≤ ibd.blocksHeight then ({ ibd with phase := .Completed }, .Complete)
  else ({ ibd with phase := .Discovering }, .Continue)

/-- Enter a phase of a round, unless the session has ended. -/
def enter (phase : IbdPhase) (ibd : IbdState) : IbdState :=
  if ibd.isTerminal then ibd else { ibd with phase := phase }

/-- Enter the header phase of a round. -/
def beginHeaderSync : IbdState → IbdState := enter .HeaderSync

/-- Enter the block phase of a round. -/
def beginBlockSync : IbdState → IbdState := enter .BlockSync

/-- Enter the verification phase of a round. -/
def beginVerification : IbdState → IbdState := enter .Verifying

/-- Check that heights follow each other and collect the hashes. The addition is checked at run
time, so there is no result if a height would leave its 64 bits. -/
def scanHeaders : UInt64 → List BlockHeader → Option (Result (UInt64 × List Hash256))
  | lastHeight, [] => some (.ok (lastHeight, []))
  | lastHeight, header :: headers =>
    match checkedAdd lastHeight 1 with
    | none => none
    | some expected =>
      if header.height ≠ expected then
        some (.error (.invalid
          s!"header gap: expected height {expected}, got {header.height}"))
      else
        (scanHeaders header.height headers).map fun result => result.map fun (reached, hashes) =>
          (reached, Primitives.blake2b256 (encode header) :: hashes)

/-- Take the next step after headers up to the current height. -/
def afterHeaders (ibd : IbdState) : IbdState × Result IbdAction :=
  if ibd.bestPeerHeight ≤ ibd.headersHeight then
    ({ ibd with phase := .BlockSync }, .ok .StartBlockDownload)
  else (ibd, .ok (.RequestMoreHeaders ibd.headersHeight))

/-- Process a batch of headers received from the peer; there is no result if the height overflows,
because the addition is checked at run time. -/
def processHeaders (ibd : IbdState) (headers : List BlockHeader) (_now : Timestamp) :
    Option (IbdState × Result IbdAction) :=
  let ibd := ibd.beginHeaderSync
  match headers with
  | [] => some ibd.afterHeaders
  | headers =>
    match scanHeaders ibd.headersHeight headers with
    | none => none
    | some (.error e) => some (ibd, .error e)
    | some (.ok (lastHeight, hashes)) =>
      some { ibd with
        headersHeight := lastHeight
        pendingBlocks := ibd.pendingBlocks ++ hashes }.afterHeaders

/-- Mark a block as validated and committed. -/
def markBlockCommitted (ibd : IbdState) (height : UInt64) : IbdState :=
  let ibd := { ibd with
    blocksHeight := max ibd.blocksHeight height
    headersHeight := max ibd.headersHeight height }
  if ibd.bestPeerHeight ≤ ibd.blocksHeight then
    { ibd with phase := .Completed, lastProgressHeight := ibd.blocksHeight }
  else ibd

/-- Take up to `max` hashes off the queue. -/
def drainPendingBlocks (ibd : IbdState) (max : Nat) : IbdState × List Hash256 :=
  let n := min max ibd.pendingBlocks.length
  ({ ibd with pendingBlocks := ibd.pendingBlocks.drop n }, ibd.pendingBlocks.take n)

/-- Record progress after a successful round. -/
def noteRoundProgress (ibd : IbdState) (height : UInt64) : IbdState × IbdControl :=
  let ibd := ibd.beginVerification
  let ibd := { ibd with
    blocksHeight := max ibd.blocksHeight height
    headersHeight := max ibd.headersHeight height
    lastProgressHeight := max ibd.blocksHeight height
    retryAttempts := 0
    lastInterruption := none }
  if ibd.bestPeerHeight ≤ ibd.blocksHeight then ({ ibd with phase := .Completed }, .Complete)
  else ({ ibd with phase := .Discovering }, .Continue)

/-- A retry count with one retry more, saturating. -/
def nextAttempt (attempts : UInt8) : UInt8 := if attempts = 255 then 255 else attempts + 1

/-- Record a recoverable interruption. -/
def noteInterruption (ibd : IbdState) (interruption : IbdInterruption) : IbdState × IbdControl :=
  let ibd := { ibd with
    phase := .Interrupted
    lastInterruption := some interruption
    retryAttempts := nextAttempt ibd.retryAttempts }
  if maxIbdRetryAttempts < ibd.retryAttempts then ({ ibd with phase := .Failed }, .Fail)
  else ({ ibd with phase := .Recovering }, .Retry)

/-- Record an empty or stalled round. -/
def noteEmptyResponse (ibd : IbdState) : IbdState × IbdControl :=
  if ibd.bestPeerHeight ≤ ibd.blocksHeight then ({ ibd with phase := .Completed }, .Complete)
  else ibd.noteInterruption .EmptyResponse

/-- The interruption class of an error of a round; an error without one is final. -/
def interruptionOf : DomError → Option IbdInterruption
  | .temporarilyInvalid _ => some .Timeout
  | .policyRejected message =>
    if "idle timeout".toList <:+: message.toList then some .Timeout else none
  | .orphan _ | .internal _ => some .PeerDisconnected
  | .invalid _ | .malformed _ | .peerMisbehavior _ _ => none

/-- Classify an error of a round into retry or failure. -/
def noteRoundError (ibd : IbdState) (error : DomError) : IbdState × IbdControl :=
  match interruptionOf error with
  | some interruption => ibd.noteInterruption interruption
  | none => ({ ibd with phase := .Failed }, .Fail)

end IbdState

/-! ## Runs -/

/-- The operations of a session. -/
inductive IbdOp where
  | beginSession
  | beginHeaderSync
  | beginBlockSync
  | beginVerification
  | processHeaders (headers : List BlockHeader) (now : Timestamp)
  | markBlockCommitted (height : UInt64)
  | drainPendingBlocks (max : Nat)
  | noteRoundProgress (height : UInt64)
  | noteEmptyResponse
  | noteInterruption (interruption : IbdInterruption)
  | noteRoundError (error : DomError)

namespace IbdState

variable {last : UInt64} {headers : List BlockHeader} {ibd ibd' : IbdState}

/-- The state after an operation, if it returns. -/
def step (ibd : IbdState) : IbdOp → Option IbdState
  | .beginSession => some ibd.beginSession.1
  | .beginHeaderSync => some ibd.beginHeaderSync
  | .beginBlockSync => some ibd.beginBlockSync
  | .beginVerification => some ibd.beginVerification
  | .processHeaders headers now => (ibd.processHeaders headers now).map Prod.fst
  | .markBlockCommitted height => some (ibd.markBlockCommitted height)
  | .drainPendingBlocks max => some (ibd.drainPendingBlocks max).1
  | .noteRoundProgress height => some (ibd.noteRoundProgress height).1
  | .noteEmptyResponse => some ibd.noteEmptyResponse.1
  | .noteInterruption interruption => some (ibd.noteInterruption interruption).1
  | .noteRoundError error => some (ibd.noteRoundError error).1

/-- The state after a sequence of operations. -/
def run (ibd : IbdState) (ops : List IbdOp) : Option IbdState := ops.foldlM step ibd

/-- **The loader's invariant of a session.** -/
structure Ordered (ibd : IbdState) : Prop where
  start_le_blocks : ibd.startHeight ≤ ibd.blocksHeight
  blocks_le_progress : ibd.blocksHeight ≤ ibd.lastProgressHeight
  progress_le_headers : ibd.lastProgressHeight ≤ ibd.headersHeight
  retries : ibd.retryAttempts ≤ maxIbdRetryAttempts

/-- Heights that follow each other from a given one. -/
def Contiguous : Nat → List BlockHeader → Prop
  | _, [] => True
  | last, header :: headers => header.height.toNat = last + 1 ∧ Contiguous (last + 1) headers

/-- Contiguity can be checked. -/
instance decidableContiguous : (last : Nat) → (headers : List BlockHeader) →
    Decidable (Contiguous last headers)
  | _, [] => .isTrue trivial
  | last, _ :: headers =>
    have := decidableContiguous (last + 1) headers
    inferInstanceAs (Decidable (_ ∧ _))

/-- **What a batch of headers establishes.** -/
theorem scanHeaders_eq_ok {reached : UInt64}
    {hashes : List Hash256} (scanned : scanHeaders last headers = some (.ok (reached, hashes))) :
    Contiguous last.toNat headers ∧ reached.toNat = last.toNat + headers.length := by
  induction headers generalizing last hashes with
  | nil =>
    cases scanned
    exact ⟨trivial, rfl⟩
  | cons header headers ih =>
    rw [scanHeaders] at scanned
    split at scanned
    · cases scanned
    · rename_i expected hadd
      rw [checkedAdd_eq_some] at hadd
      split at scanned
      · cases scanned
      · rename_i heq
        rw [not_not] at heq
        obtain ⟨result, hrest, hresult⟩ := Option.map_eq_some_iff.mp scanned
        obtain e | ⟨reached', hashes'⟩ := result
        · cases hresult
        · cases hresult
          obtain ⟨hcontiguous, hreached⟩ := ih hrest
          rw [heq, hadd] at hcontiguous hreached
          refine ⟨⟨heq ▸ hadd, hcontiguous⟩, ?_⟩
          rw [hreached, List.length_cons, UInt64.toNat_one]
          omega

/-- A contiguous batch is accepted. -/
theorem exists_scanHeaders (contiguous : Contiguous last.toNat headers) :
    ∃ reached hashes, scanHeaders last headers = some (.ok (reached, hashes)) := by
  induction headers generalizing last with
  | nil => exact ⟨last, [], rfl⟩
  | cons header headers ih =>
    obtain ⟨hheight, hrest⟩ := contiguous
    have hadd : checkedAdd last 1 = some header.height := checkedAdd_eq_some.mpr hheight
    rw [← hheight] at hrest
    obtain ⟨reached, hashes, hscan⟩ := ih hrest
    rw [scanHeaders, hadd]
    simp [hscan, Except.map]

/-- **The condition under which an operation keeps the invariant and does not leave a terminal
phase.** -/
def Allows (ibd : IbdState) : IbdOp → Prop
  | .beginSession =>
    ibd.isTerminal → ibd.isComplete ∧ ibd.bestPeerHeight ≤ ibd.blocksHeight
  | .beginHeaderSync | .beginBlockSync | .beginVerification | .drainPendingBlocks _ => True
  | .processHeaders headers _ =>
    ibd.isTerminal → Contiguous ibd.headersHeight.toNat headers →
      ibd.headersHeight.toNat + headers.length < ibd.bestPeerHeight.toNat
  | .markBlockCommitted height =>
    (max ibd.blocksHeight height < ibd.bestPeerHeight → height ≤ ibd.lastProgressHeight) ∧
      (ibd.isFailed → max ibd.blocksHeight height < ibd.bestPeerHeight)
  | .noteRoundProgress height =>
    ¬ ibd.isFailed ∧ (ibd.isComplete → ibd.bestPeerHeight ≤ max ibd.blocksHeight height)
  | .noteEmptyResponse =>
    if ibd.bestPeerHeight ≤ ibd.blocksHeight then ¬ ibd.isFailed
    else ¬ ibd.isTerminal ∧ ibd.retryAttempts < maxIbdRetryAttempts
  | .noteInterruption _ => ¬ ibd.isTerminal ∧ ibd.retryAttempts < maxIbdRetryAttempts
  | .noteRoundError error =>
    if (interruptionOf error).isSome then
      ¬ ibd.isTerminal ∧ ibd.retryAttempts < maxIbdRetryAttempts
    else ¬ ibd.isComplete

instance (ibd : IbdState) (op : IbdOp) : Decidable (ibd.Allows op) := by
  cases op <;> dsimp only [Allows] <;> infer_instance

section

omit [Primitives]

/-- Being in order depends on the heights and the retry count alone. -/
theorem ordered_iff : ibd.Ordered ↔
    ibd.startHeight.toNat ≤ ibd.blocksHeight.toNat ∧
      ibd.blocksHeight.toNat ≤ ibd.lastProgressHeight.toNat ∧
      ibd.lastProgressHeight.toNat ≤ ibd.headersHeight.toNat ∧ ibd.retryAttempts.toNat ≤ 3 :=
  ⟨fun h => ⟨h.1, h.2, h.3, h.4⟩, fun ⟨h1, h2, h3, h4⟩ => ⟨h1, h2, h3, h4⟩⟩

theorem Ordered.withPhase (ordered : ibd.Ordered) (phase : IbdPhase) :
    { ibd with phase := phase }.Ordered :=
  ⟨ordered.1, ordered.2, ordered.3, ordered.4⟩

theorem toNat_nextAttempt (attempts : UInt8) :
    (nextAttempt attempts).toNat = min 255 (attempts.toNat + 1) := by
  unfold nextAttempt
  split
  · rename_i h
    rw [h]
    rfl
  · rename_i h
    have hlt := attempts.toNat_lt
    have hne : attempts.toNat ≠ 255 := fun heq => h (UInt8.toNat_inj.mp heq)
    rw [UInt8.toNat_add, UInt8.toNat_one]
    omega

/-- **An interruption** keeps the order exactly while the retry budget is not used up. -/
theorem ordered_noteInterruption (ordered : ibd.Ordered) (interruption : IbdInterruption) :
    (ibd.noteInterruption interruption).1.Ordered ↔ ibd.retryAttempts < maxIbdRetryAttempts := by
  have hheights : ∀ phase, { ibd with
      phase := phase
      lastInterruption := some interruption
      retryAttempts := nextAttempt ibd.retryAttempts }.Ordered ↔
      ibd.retryAttempts < maxIbdRetryAttempts := by
    intro phase
    rw [ordered_iff] at ordered ⊢
    show _ ∧ _ ∧ _ ∧ (nextAttempt ibd.retryAttempts).toNat ≤ 3 ↔ ibd.retryAttempts.toNat < 3
    rw [toNat_nextAttempt]
    exact ⟨fun h => by omega, fun h => ⟨ordered.1, ordered.2.1, ordered.2.2.1, by omega⟩⟩
  unfold noteInterruption
  dsimp only
  split <;> exact hheights _

theorem phase_noteInterruption (interruption : IbdInterruption)
    (budget : ibd.retryAttempts < maxIbdRetryAttempts) :
    (ibd.noteInterruption interruption).1.phase = .Recovering := by
  have hlt : ibd.retryAttempts.toNat < 3 := budget
  have hle : ¬ maxIbdRetryAttempts < nextAttempt ibd.retryAttempts := by
    rw [UInt8.not_lt, UInt8.le_iff_toNat_le, toNat_nextAttempt]
    show _ ≤ 3
    omega
  unfold noteInterruption
  dsimp only
  rw [if_neg hle]

theorem isTerminal_iff : ibd.isTerminal = true ↔ ibd.phase = .Completed ∨ ibd.phase = .Failed := by
  simp [isTerminal, isComplete, isFailed]

/-- What a state and the state after an operation must satisfy: the second is in order, and it is in
the same phase if the first is terminal. -/
def Keeps (ibd ibd' : IbdState) : Prop :=
  ibd'.Ordered ∧ (ibd.isTerminal = true → ibd'.phase = ibd.phase)

theorem keeps_noteInterruption (ordered : ibd.Ordered) (interruption : IbdInterruption) :
    ibd.Keeps (ibd.noteInterruption interruption).1 ↔
      ¬ ibd.isTerminal ∧ ibd.retryAttempts < maxIbdRetryAttempts := by
  rw [Keeps, ordered_noteInterruption ordered, and_comm, and_congr_left_iff]
  intro budget
  rw [phase_noteInterruption interruption budget]
  refine ⟨fun h hterminal => ?_, fun h hterminal => absurd hterminal h⟩
  have hphase := h hterminal
  rw [isTerminal_iff, ← hphase] at hterminal
  exact nomatch hterminal

/-- Entering a phase of a round changes at most the phase. -/
theorem exists_enter (phase : IbdPhase) (ibd : IbdState) :
    ∃ entered, ibd.enter phase = { ibd with phase := entered } := by
  unfold enter
  split
  · exact ⟨ibd.phase, rfl⟩
  · exact ⟨phase, rfl⟩

/-- Entering a phase of a round keeps everything. -/
theorem keeps_enter (ordered : ibd.Ordered) (phase : IbdPhase) : ibd.Keeps (ibd.enter phase) := by
  unfold enter
  split
  · exact ⟨ordered, fun _ => rfl⟩
  · exact ⟨ordered.withPhase phase, fun h => absurd h ‹_›⟩

/-- Completing a session keeps it unless it has failed. -/
theorem keeps_completed (ordered : ibd'.Ordered)
    (phase : ibd'.phase = .Completed) : ibd.Keeps ibd' ↔ ¬ ibd.isFailed := by
  rw [Keeps, phase, isTerminal_iff, and_iff_right ordered]
  cases hphase : ibd.phase <;> simp [isFailed, hphase]

/-- Failing a session keeps it unless it is complete. -/
theorem keeps_failed (ordered : ibd'.Ordered)
    (phase : ibd'.phase = .Failed) : ibd.Keeps ibd' ↔ ¬ ibd.isComplete := by
  rw [Keeps, phase, isTerminal_iff, and_iff_right ordered]
  cases hphase : ibd.phase <;> simp [isComplete, hphase]

/-- Moving a session into a phase of a round keeps it unless it has ended. -/
theorem keeps_open (ordered : ibd'.Ordered)
    (running : ¬ ibd'.isTerminal) : ibd.Keeps ibd' ↔ ¬ ibd.isTerminal := by
  rw [Keeps, and_iff_right ordered]
  refine ⟨fun h hterminal => running ?_, fun h hterminal => absurd hterminal h⟩
  rw [isTerminal_iff, h hterminal, ← isTerminal_iff]
  exact hterminal

theorem keeps_beginSession (ordered : ibd.Ordered) :
    ibd.Keeps ibd.beginSession.1 ↔
      (ibd.isTerminal → ibd.isComplete ∧ ibd.bestPeerHeight ≤ ibd.blocksHeight) := by
  unfold beginSession
  split
  · rename_i hbest
    rw [keeps_completed (ordered.withPhase _) rfl]
    cases hphase : ibd.phase <;> simp [isTerminal, isComplete, isFailed, hphase, hbest]
  · rename_i hbest
    rw [keeps_open (ordered.withPhase .Discovering) (by simp [isTerminal, isComplete, isFailed])]
    simp [hbest]

/-- After headers the session is kept unless it has ended and the peer's height is reached. -/
theorem keeps_afterHeaders (ordered : ibd'.Ordered)
    (entered : ibd.isTerminal = true → ibd'.phase = ibd.phase) :
    ibd.Keeps ibd'.afterHeaders.1 ↔
      (ibd.isTerminal → ibd'.headersHeight < ibd'.bestPeerHeight) := by
  unfold afterHeaders
  split
  · rename_i hbest
    rw [keeps_open (ordered.withPhase .BlockSync) (by simp [isTerminal, isComplete, isFailed])]
    exact forall_congr' fun _ => iff_of_false not_false (UInt64.not_lt.mpr hbest)
  · rename_i hbest
    exact iff_of_true ⟨ordered, entered⟩ fun _ => UInt64.not_le.mp hbest

end

/-- **A batch of headers** leaves a terminal phase exactly when it is contiguous and reaches the
height of the peer; a batch that is not contiguous changes no height. -/
theorem keeps_processHeaders (ordered : ibd.Ordered) {now : Timestamp} {result : Result IbdAction}
    (processed : ibd.processHeaders headers now = some (ibd', result)) :
    ibd.Keeps ibd' ↔ (ibd.isTerminal → Contiguous ibd.headersHeight.toNat headers →
      ibd.headersHeight.toNat + headers.length < ibd.bestPeerHeight.toNat) := by
  obtain ⟨hordered, hentered⟩ : ibd.Keeps ibd.beginHeaderSync := keeps_enter ordered _
  obtain ⟨entered, heq⟩ := exists_enter .HeaderSync ibd
  have hbest : ibd.beginHeaderSync.bestPeerHeight = ibd.bestPeerHeight := by
    rw [beginHeaderSync, heq]
  have hheaders : ibd.beginHeaderSync.headersHeight = ibd.headersHeight := by
    rw [beginHeaderSync, heq]
  unfold processHeaders at processed
  dsimp only at processed
  split at processed
  · obtain rfl := congrArg Prod.fst (Option.some.inj processed)
    rw [keeps_afterHeaders hordered hentered, hbest, hheaders]
    simp [Contiguous, UInt64.lt_iff_toNat_lt]
  · rw [hheaders] at processed
    split at processed
    · cases processed
    · -- a gap: the batch is rejected after the phase was entered
      rename_i hscan
      cases processed
      refine iff_of_true ⟨hordered, hentered⟩ fun _ hcontiguous => ?_
      obtain ⟨_, _, hok⟩ := exists_scanHeaders hcontiguous
      rw [hok] at hscan
      exact nomatch hscan
    · rename_i lastHeight hashes hscan
      obtain ⟨hcontiguous, hlast⟩ := scanHeaders_eq_ok hscan
      have hle : ibd.headersHeight ≤ lastHeight := by
        rw [UInt64.le_iff_toNat_le, hlast]
        exact Nat.le_add_right _ _
      have hadvanced : { ibd.beginHeaderSync with
          headersHeight := lastHeight
          pendingBlocks := ibd.beginHeaderSync.pendingBlocks ++ hashes }.Ordered :=
        ⟨hordered.1, hordered.2, UInt64.le_trans hordered.3 (hheaders ▸ hle), hordered.4⟩
      obtain rfl := congrArg Prod.fst (Option.some.inj processed)
      rw [keeps_afterHeaders hadvanced hentered]
      simp [hcontiguous, hbest, UInt64.lt_iff_toNat_lt, hlast]

omit [Primitives] in
theorem keeps_markBlockCommitted (ordered : ibd.Ordered) (height : UInt64) :
    ibd.Keeps (ibd.markBlockCommitted height) ↔
      (max ibd.blocksHeight height < ibd.bestPeerHeight → height ≤ ibd.lastProgressHeight) ∧
        (ibd.isFailed → max ibd.blocksHeight height < ibd.bestPeerHeight) := by
  rw [ordered_iff] at ordered
  unfold markBlockCommitted
  dsimp only
  split
  · rename_i hbest
    have hnot : ¬ max ibd.blocksHeight height < ibd.bestPeerHeight := UInt64.not_lt.mpr hbest
    rw [keeps_completed (ordered_iff.mpr ?_) rfl]
    · simp [hnot]
    · simp only [UInt64.toNat_max]
      omega
  · rename_i hbest
    have hlt : max ibd.blocksHeight height < ibd.bestPeerHeight := UInt64.not_le.mp hbest
    simp only [Keeps, ordered_iff, UInt64.toNat_max, implies_true, and_true, hlt, true_imp_iff,
      UInt64.le_iff_toNat_le]
    omega

omit [Primitives] in
theorem keeps_noteRoundProgress (ordered : ibd.Ordered) (height : UInt64) :
    ibd.Keeps (ibd.noteRoundProgress height).1 ↔
      ¬ ibd.isFailed ∧ (ibd.isComplete → ibd.bestPeerHeight ≤ max ibd.blocksHeight height) := by
  obtain ⟨entered, hentered⟩ := exists_enter .Verifying ibd
  rw [ordered_iff] at ordered
  have hordered : ∀ phase, { ibd with
      phase := phase
      blocksHeight := max ibd.blocksHeight height
      headersHeight := max ibd.headersHeight height
      lastProgressHeight := max ibd.blocksHeight height
      retryAttempts := 0
      lastInterruption := none }.Ordered := by
    intro phase
    rw [ordered_iff]
    simp only [UInt64.toNat_max]
    exact ⟨by omega, le_rfl, by omega, by decide⟩
  unfold noteRoundProgress beginVerification
  rw [hentered]
  dsimp only
  split
  · rename_i hbest
    rw [keeps_completed (hordered _) rfl]
    simp [hbest]
  · rename_i hbest
    rw [keeps_open (hordered .Discovering) (by simp [isTerminal, isComplete, isFailed])]
    simp [hbest, isTerminal, and_comm]

/-- **An operation keeps the invariant and the terminal phases exactly when it is allowed.** -/
theorem keeps_iff_allows {op : IbdOp} (ordered : ibd.Ordered)
    (stepped : ibd.step op = some ibd') : ibd.Keeps ibd' ↔ ibd.Allows op := by
  cases op with
  | beginSession =>
    cases stepped
    exact keeps_beginSession ordered
  | beginHeaderSync | beginBlockSync | beginVerification =>
    cases stepped
    exact iff_of_true (keeps_enter ordered _) trivial
  | processHeaders headers now =>
    obtain ⟨⟨_, result⟩, hprocessed, rfl⟩ := Option.map_eq_some_iff.mp stepped
    exact keeps_processHeaders ordered hprocessed
  | markBlockCommitted height =>
    cases stepped
    exact keeps_markBlockCommitted ordered height
  | drainPendingBlocks max =>
    cases stepped
    exact iff_of_true ⟨⟨ordered.1, ordered.2, ordered.3, ordered.4⟩, fun _ => rfl⟩ trivial
  | noteRoundProgress height =>
    cases stepped
    exact keeps_noteRoundProgress ordered height
  | noteEmptyResponse =>
    cases stepped
    unfold noteEmptyResponse Allows
    split
    · exact keeps_completed (ordered.withPhase _) rfl
    · exact keeps_noteInterruption ordered _
  | noteInterruption interruption =>
    cases stepped
    exact keeps_noteInterruption ordered interruption
  | noteRoundError error =>
    cases stepped
    show ibd.Keeps (ibd.noteRoundError error).1 ↔ if _ then _ else _
    unfold noteRoundError
    cases interruptionOf error with
    | some interruption => exact keeps_noteInterruption ordered interruption
    | none => exact keeps_failed (ordered.withPhase _) rfl

end IbdState

/-! ## Snapshots of a session -/

/-- The work queues of a round, as the node persists them. -/
structure IbdRoundState where
  pendingBlocks : List Hash256
  pendingHeaders : List Bytes
  blockCursor : UInt32
  headerCursor : UInt32
  headerCursorHeight : UInt64

/-- The sizes of a round: a header message has at most `maxHeadersPerMsg` headers, and the cursors
count the items of their queues. -/
structure IbdRoundState.Bounded (round : IbdRoundState) : Prop where
  pendingBlocks : round.pendingBlocks.length ≤ maxHeadersPerMsg
  pendingHeaders : round.pendingHeaders.length ≤ maxHeadersPerMsg
  headerSize : ∀ header ∈ round.pendingHeaders, header.length ≤ 1024
  blockCursor : round.blockCursor.toNat ≤ round.pendingBlocks.length
  headerCursor : round.headerCursor.toNat ≤ round.pendingHeaders.length

/-- The snapshot of a session. The canonical tip is the durable block cursor, because it can advance
within a round before the session is told. -/
def IbdState.snapshot (ibd : IbdState) (tipHeight : UInt64) (tipHash : Hash256) (peerAddr : String)
    (round : IbdRoundState) : PersistedIbdState where
  phase := ibd.phase
  peerAddr := peerAddr
  startHeight := ibd.startHeight
  bestPeerHeight := ibd.bestPeerHeight
  headersHeight := max (max ibd.headersHeight ibd.lastProgressHeight) tipHeight
  blocksHeight := tipHeight
  lastProgressHeight := max ibd.lastProgressHeight tipHeight
  checkpointTipHash := tipHash
  retryAttempts := ibd.retryAttempts
  lastInterruption := ibd.lastInterruption
  pendingBlocks := round.pendingBlocks
  pendingHeaders := round.pendingHeaders
  blockCursor := round.blockCursor
  headerCursor := round.headerCursor
  headerCursorHeight := round.headerCursorHeight

/-- Persist a session. -/
def persistIbdState (tipHeight : UInt64) (tipHash : Hash256) (peerAddr : String) (ibd : IbdState)
    (round : IbdRoundState) (metadata : Table Bytes Bytes) : Result (Table Bytes Bytes) :=
  (ibd.snapshot tipHeight tipHash peerAddr round).save metadata

namespace IbdState

omit [Primitives] in
/-- The node repairs the order of the upper heights when it takes a snapshot; what it cannot repair
is a tip below the start of the session or a used-up retry budget. -/
theorem ordered_snapshot {ibd : IbdState} {tipHeight : UInt64} {tipHash : Hash256}
    {peerAddr : String} {round : IbdRoundState} :
    (ibd.snapshot tipHeight tipHash peerAddr round).Ordered ↔
      ibd.startHeight ≤ tipHeight ∧ ibd.retryAttempts ≤ maxIbdRetryAttempts := by
  constructor
  · exact fun h => ⟨h.start_le_blocks, h.retries⟩
  · rintro ⟨hstart, hretries⟩
    refine ⟨hstart, ?_, ?_, hretries⟩
    all_goals
      simp only [snapshot, UInt64.le_iff_toNat_le, UInt64.toNat_max]
      omega

/-- **Every snapshot the node takes of this state survives a restart**, whatever the round, as long
as the canonical tip is not below the start of the session. -/
def Reloads (ibd : IbdState) : Prop :=
  ∀ (tipHeight : UInt64) (tipHash : Hash256) (peerAddr : String) (round : IbdRoundState)
    (metadata : Table Bytes Bytes), ibd.startHeight ≤ tipHeight →
    (utf8 peerAddr).length ≤ 128 → round.Bounded →
    ∃ saved, persistIbdState tipHeight tipHash peerAddr ibd round metadata = .ok saved ∧
      PersistedIbdState.load saved =
        .ok (some (ibd.snapshot tipHeight tipHash peerAddr round), saved)

omit [Primitives] in
theorem Ordered.reloads {ibd : IbdState} (ordered : ibd.Ordered) : ibd.Reloads := by
  intro tipHeight tipHash peerAddr round metadata hstart hpeer hround
  have hbounded : (ibd.snapshot tipHeight tipHash peerAddr round).Bounded :=
    ⟨hpeer, hround.1, hround.2, hround.3, hround.4, hround.5⟩
  exact (PersistedIbdState.load_save hbounded metadata).mpr
    (ordered_snapshot.mpr ⟨hstart, ordered.retries⟩)

end IbdState

/-! ## Sound runs -/

/-- **How a session begins**: anew, or from a snapshot the loader accepted. -/
inductive Opened : IbdState → Prop
  | new (startHeight bestPeerHeight : UInt64) : Opened (.new startHeight bestPeerHeight)
  | resumed {metadata metadata' : Table Bytes Bytes} {snapshot : PersistedIbdState}
      {ibd : IbdState} (loaded : PersistedIbdState.load metadata = .ok (some snapshot, metadata'))
      (restored : IbdState.fromPersisted snapshot = .ok ibd) : Opened ibd

omit [Primitives] in
theorem PersistedIbdState.ordered_of_load {metadata metadata' : Table Bytes Bytes}
    {snapshot : PersistedIbdState} (loaded : load metadata = .ok (some snapshot, metadata')) :
    snapshot.Ordered := by
  unfold load at loaded
  split at loaded
  · simp only [bind_eq_ok, pure_eq_ok, Prod.mk.injEq, Option.some.injEq] at loaded
    obtain ⟨_, hdecoded, rfl, -⟩ := loaded
    exact (parses_of_fromBytes deserialize_spec hdecoded).1.2
  · split at loaded
    · simp only [bind_eq_ok, pure_eq_ok, Prod.mk.injEq, Option.some.injEq] at loaded
      obtain ⟨_, hdecoded, _, -, rfl, -⟩ := loaded
      exact (parses_of_fromBytes deserialize_spec hdecoded).1.2
    · cases loaded

omit [Primitives] in
theorem Opened.ordered {ibd : IbdState} (opened : Opened ibd) : ibd.Ordered := by
  cases opened with
  | new startHeight bestPeerHeight =>
    exact ⟨UInt64.le_refl _, UInt64.le_refl _, UInt64.le_refl _, UInt8.zero_le⟩
  | resumed loaded restored =>
    have hordered := PersistedIbdState.ordered_of_load loaded
    simp only [IbdState.fromPersisted, bind_eq_ok, pure_eq_ok] at restored
    obtain ⟨_, -, rfl⟩ := restored
    exact ⟨hordered.1, hordered.2, hordered.3, hordered.4⟩

namespace IbdState

variable {op : IbdOp} {ops : List IbdOp} {start : IbdState}

/-- Every operation of a run is allowed in the state it meets. -/
def AllowsAll (ibd : IbdState) : List IbdOp → Prop
  | [] => True
  | op :: ops =>
    match ibd.step op with
    | none => True
    | some ibd' => ibd.Allows op ∧ ibd'.AllowsAll ops

instance decidableAllowsAll : (ibd : IbdState) → (ops : List IbdOp) → Decidable (ibd.AllowsAll ops)
  | _, [] => .isTrue trivial
  | ibd, op :: ops => by
    unfold AllowsAll
    exact match ibd.step op with
      | none => .isTrue trivial
      | some ibd' =>
        have := decidableAllowsAll ibd' ops
        inferInstanceAs (Decidable (_ ∧ _))

theorem run_cons_eq_some {ibd ibd' : IbdState} :
    ibd.run (op :: ops) = some ibd' ↔
      ∃ next, ibd.step op = some next ∧ next.run ops = some ibd' :=
  Option.bind_eq_some_iff

/-- **A sound run**: every state it passes through is in order and can be persisted and loaded
again, and a terminal phase, once reached, is final. -/
structure Sound (start : IbdState) (ops : List IbdOp) : Prop where
  ordered : ∀ front, front <+: ops → ∀ ibd, start.run front = some ibd → ibd.Ordered
  reloads : ∀ front, front <+: ops → ∀ ibd, start.run front = some ibd → ibd.Reloads
  final : ∀ front later, front ++ later <+: ops → ∀ ibd ibd', start.run front = some ibd →
    ibd.run later = some ibd' → ibd.isTerminal = true → ibd'.phase = ibd.phase

/-- The rest of a sound run is sound. -/
theorem Sound.tail {next : IbdState}
    (sound : start.Sound (op :: ops)) (stepped : start.step op = some next) : next.Sound ops := by
  have hrun : ∀ {front ibd}, next.run front = some ibd → start.run (op :: front) = some ibd :=
    fun h => run_cons_eq_some.mpr ⟨next, stepped, h⟩
  have hinitial : ∀ {front}, front <+: ops → op :: front <+: op :: ops :=
    fun h => List.cons_prefix_cons.mpr ⟨rfl, h⟩
  refine ⟨fun front hfront ibd h => ?_, fun front hfront ibd h => ?_,
    fun front later hfront ibd ibd' h h' => ?_⟩
  · exact sound.ordered (op :: front) (hinitial hfront) ibd (hrun h)
  · exact sound.reloads (op :: front) (hinitial hfront) ibd (hrun h)
  · exact sound.final (op :: front) later (hinitial hfront) ibd ibd' (hrun h) h'

/-- **One operation in front of a sound run.** -/
theorem Sound.cons (ordered : start.Ordered)
    (next : ∀ ibd, start.step op = some ibd → start.Keeps ibd ∧ ibd.Sound ops) :
    start.Sound (op :: ops) := by
  have hordered : ∀ front, front <+: op :: ops → ∀ ibd, start.run front = some ibd →
      ibd.Ordered := by
    intro front hfront ibd h
    cases front with
    | nil =>
      cases h
      exact ordered
    | cons op' front =>
      obtain ⟨rfl, hrest⟩ := List.cons_prefix_cons.mp hfront
      obtain ⟨mid, hstep, hrun⟩ := run_cons_eq_some.mp h
      exact (next mid hstep).2.ordered front hrest ibd hrun
  refine ⟨hordered, fun front hfront ibd h => (hordered front hfront ibd h).reloads, ?_⟩
  intro front later hfront ibd ibd' h h' hterminal
  cases front with
  | cons op' front =>
    obtain ⟨rfl, hrest⟩ := List.cons_prefix_cons.mp hfront
    obtain ⟨mid, hstep, hrun⟩ := run_cons_eq_some.mp h
    exact (next mid hstep).2.final front later hrest ibd ibd' hrun h' hterminal
  | nil =>
    cases h
    cases later with
    | nil =>
      cases h'
      rfl
    | cons op' later =>
      -- the first operation keeps the phase, and the rest of the run keeps it from there
      obtain ⟨rfl, hrest⟩ := List.cons_prefix_cons.mp hfront
      obtain ⟨mid, hstep, hrun⟩ := run_cons_eq_some.mp h'
      obtain ⟨hkeeps, hsound⟩ := next mid hstep
      have hphase := hkeeps.2 hterminal
      have hmid : mid.isTerminal = true := by
        rw [isTerminal_iff, hphase, ← isTerminal_iff]
        exact hterminal
      rw [← hphase]
      exact hsound.final [] later hrest mid ibd' rfl hrun hmid

/-- **From a state in order, a run is sound exactly when its operations are allowed.** -/
theorem Ordered.sound_iff (ordered : start.Ordered) (ops : List IbdOp) :
    start.Sound ops ↔ start.AllowsAll ops := by
  induction ops generalizing start with
  | nil =>
    refine iff_of_true ⟨fun front hfront ibd h => ?_, fun front hfront ibd h => ?_, ?_⟩ trivial
    · obtain rfl := List.prefix_nil.mp hfront
      cases h
      exact ordered
    · obtain rfl := List.prefix_nil.mp hfront
      cases h
      exact ordered.reloads
    · intro front later hfront ibd ibd' h h' _
      obtain ⟨rfl, rfl⟩ := List.append_eq_nil_iff.mp (List.prefix_nil.mp hfront)
      cases h
      cases h'
      rfl
  | cons op ops ih =>
    rw [AllowsAll]
    cases hstep : start.step op with
    | none =>
      refine iff_of_true (Sound.cons ordered fun ibd h => ?_) trivial
      rw [hstep] at h
      cases h
    | some next =>
      constructor
      · intro sound
        have hnext := sound.ordered [op] ⟨ops, rfl⟩ next
          (run_cons_eq_some.mpr ⟨next, hstep, rfl⟩)
        have hfinal := sound.final [] [op] ⟨ops, rfl⟩ start next rfl
          (run_cons_eq_some.mpr ⟨next, hstep, rfl⟩)
        exact ⟨(keeps_iff_allows ordered hstep).mp ⟨hnext, hfinal⟩,
          (ih hnext).mp (sound.tail hstep)⟩
      · rintro ⟨hallowed, hrest⟩
        refine Sound.cons ordered fun ibd h => ?_
        rw [hstep, Option.some.injEq] at h
        subst h
        have hkeeps := (keeps_iff_allows ordered hstep).mpr hallowed
        exact ⟨hkeeps, (ih hkeeps.1).mpr hrest⟩

end IbdState

/-- **A session is sound exactly when its operations are allowed.** -/
theorem session_sound_iff {start : IbdState} (opened : Opened start) (ops : List IbdOp) :
    start.Sound ops ↔ start.AllowsAll ops :=
  opened.ordered.sound_iff ops

end Sessions

namespace Transparent

attribute [local instance] primitives

/-- A session that makes progress twice and completes is sound. -/
theorem session_sound_completing :
    (IbdState.new 0 2).Sound
      [.beginSession, .noteInterruption .Timeout, .noteRoundProgress 1, .noteRoundProgress 2] :=
  (session_sound_iff (.new 0 2) _).mpr (by decide)

/-- **Four interruptions exceed the retry count the loader accepts, a committed block overtakes the
recorded progress, and a failed session begins again.** -/
theorem session_unsound :
    ¬ (IbdState.new 0 50).Sound (List.replicate 4 (.noteInterruption .Timeout)) ∧
      ¬ (IbdState.new 0 50).Sound [.markBlockCommitted 5] ∧
      ¬ (IbdState.new 0 50).Sound [.noteRoundError (.invalid "bad ordering"), .beginSession] := by
  have hordered := (Opened.new 0 50).ordered
  simp only [hordered.sound_iff]
  decide

end Transparent

end DomProtocol
