import DomProtocol.DomWallet.Operations

/-! # What the operations do

How the operations of a wallet end when they succeed, function by function. On a **`Sound`**
unlocked wallet a block always applies, and **`getElem?_outputs_applied`** gives the outputs
afterwards in closed form: the inputs of the resolved pending transactions are settled, and what is
new is their change, the outputs of answered slates and the coinbase found by the scan, in this
order. -/

namespace DomProtocol.DomWallet

open Act (runs_get runs_lift runs_modify runs_pure)

open Table

open Primitives

/-- How an operation of the wallet ends. -/
abbrev Runs {α : Type} (x : WalletAct α) (w : Wallet) (d : Drive) (outcome : Except WalletError α)
    (w' : Wallet) (d' : Drive) : Prop :=
  Act.Runs Drive.exec x w d outcome w' d'

/-- An output with a reservation. -/
def OwnedOutput.reservedFor (txHash : Hash256) (output : OwnedOutput) : OwnedOutput :=
  { output with reservedForTx := some txHash }

/-- An output without its reservation. -/
def OwnedOutput.unreserved (output : OwnedOutput) : OwnedOutput :=
  { output with reservedForTx := none }

/-- The wallet is unlocked. -/
def Wallet.Unlocked (w : Wallet) : Prop := w.session ≠ none

namespace Wallet

variable {w : Wallet} {d : Drive} {w' : Wallet}

/-! ## Small steps -/

/-- An operation whose success was computed. -/
theorem runs_of_isOk {x : WalletAct Unit} (ok : ((x w).run Drive.exec d).1.1.isOk = true) :
    Runs x w d (.ok ()) ((x w).run Drive.exec d).1.2 ((x w).run Drive.exec d).2 := by
  obtain ⟨outcome, w', d', run⟩ := Act.exists_runs Drive.exec x w d
  have evaluated : (x w).run Drive.exec d = ((outcome, w'), d') := run
  rw [evaluated] at ok ⊢
  cases outcome with
  | error e => cases ok
  | ok a => exact run

/-- The outputs are replaced. -/
@[simp] theorem outputs_withOutputs (w : Wallet) (outputs : OutputIndex) :
    (w.withOutputs outputs).outputs = outputs := rfl

/-- Pending transactions stay. -/
@[simp] theorem pendingTxs_withOutputs (w : Wallet) (outputs : OutputIndex) :
    (w.withOutputs outputs).pendingTxs = w.pendingTxs := rfl

/-- An unlocked wallet has a session. -/
theorem runs_requireSession {password : String} (unlocked : w.session = some password)
    (d : Drive) : Runs requireSession w d (.ok password) w d := by
  refine (runs_get w d).bind ?_
  rw [unlocked]
  exact runs_lift _ w d

/-- A locked one has none. -/
theorem runs_requireSession_of_locked (locked : w.session = none) (d : Drive) :
    Runs requireSession w d (.error .locked) w d := by
  refine (runs_get w d).bind ?_
  rw [locked]
  exact runs_lift _ w d

/-- What succeeds after asking for the session had one. -/
theorem of_requireSession_bind {α : Type} {f : String → WalletAct α} {d' : Drive}
    {a : α} (run : Runs (requireSession >>= f) w d (.ok a) w' d') :
    ∃ password, w.session = some password ∧ Runs (f password) w d (.ok a) w' d' := by
  cases unlocked : w.session with
  | none => cases (run.unique (runs_requireSession_of_locked unlocked d).bind_error).1
  | some password => exact ⟨password, rfl, run.rest (runs_requireSession unlocked d)⟩

/-- An unlocked wallet is saved. -/
theorem runs_save (unlocked : w.Unlocked) (d : Drive) :
    Runs save w d (.ok ()) w (d.save w.toWalletState) := by
  obtain ⟨password, hpassword⟩ := Option.ne_none_iff_exists'.mp unlocked
  exact (runs_requireSession hpassword d).bind ((runs_get w d).bind
    (Act.runs_perform (I := DiskPort) (.save w.toWalletState) w d))

/-- A locked wallet is not. -/
theorem runs_save_of_locked (locked : w.session = none) (d : Drive) :
    Runs save w d (.error .locked) w d :=
  (runs_requireSession_of_locked locked d).bind_error

/-- Saving leaves the wallet in memory alone. -/
theorem exists_runs_save (w : Wallet) (d : Drive) : ∃ outcome d', Runs save w d outcome w d' := by
  by_cases locked : w.session = none
  · exact ⟨_, _, runs_save_of_locked locked d⟩
  · exact ⟨_, _, runs_save locked d⟩

/-- A record is appended to the journal. -/
theorem runs_recordJournal (txHash : Hash256) (event : TxJournalEvent) (w : Wallet) (d : Drive) :
    Runs (recordJournal txHash event) w d (.ok ()) w (d.append ⟨txHash, event⟩) :=
  Act.runs_perform (I := DiskPort) (.append ⟨txHash, event⟩) w d

/-- The journal is read as it was written. -/
theorem runs_replayJournal (w : Wallet) (d : Drive) : Runs replayJournal w d (.ok d.records) w d :=
  Act.runs_perform (I := DiskPort) .replay w d

/-- A change of the outputs that succeeds. -/
theorem runs_onOutputs {f : OutputIndex → Except WalletError OutputIndex}
    {outputs : OutputIndex} (changed : f w.outputs = .ok outputs) (d : Drive) :
    Runs (onOutputs f) w d (.ok ()) (w.withOutputs outputs) d := by
  refine (runs_get w d).bind ?_
  rw [changed]
  exact (runs_lift _ w d).bind (runs_modify _ w d)

/-- A tracked transaction is found. -/
theorem runs_trackedTx {txHash : Hash256} {pending : PendingTx}
    (tracked : w.pendingTxs[txHash]? = some pending) (d : Drive) :
    Runs (trackedTx txHash) w d (.ok pending) w d := by
  refine (runs_get w d).bind ?_
  rw [tracked]
  exact runs_lift _ w d

/-- Two changes of one output. -/
theorem updateAt_updateAt (f g : OwnedOutput → OwnedOutput) (outputs : OutputIndex)
    (commitment : Octets 33) :
    updateAt g (updateAt f outputs commitment) commitment =
      updateAt (fun output => g (f output)) outputs commitment := by
  refine Std.ExtTreeMap.ext_getElem? fun c => ?_
  simp only [getElem?_updateAt, if_true]
  by_cases same : commitment = c
  · simp [same, Function.comp_def]
  · simp [same]

/-- A loop that changes the outputs with the listed commitments, all of them recorded. -/
theorem runs_forEach_change {body : Octets 33 → WalletAct Unit}
    {f : Octets 33 → OwnedOutput → OwnedOutput}
    (pass : ∀ commitment (w : Wallet) (d : Drive), w.outputs[commitment]? ≠ none →
      Runs (body commitment) w d (.ok ())
        (w.withOutputs (updateAt (f commitment) w.outputs commitment)) d)
    {commitments : List (Octets 33)}
    (recorded : ∀ commitment ∈ commitments, w.outputs[commitment]? ≠ none) (d : Drive) :
    Runs (Act.forEach body commitments) w d (.ok ())
      (w.withOutputs (updateAll f commitments w.outputs)) d := by
  have run : Runs (Act.forEach body commitments) w d _ _ _ := Act.runs_forEach
    (fun state commitment =>
      (state.1.withOutputs (updateAt (f commitment) state.1.outputs commitment), state.2))
    (fun items state => ∀ commitment ∈ items, state.1.outputs[commitment]? ≠ none)
    (fun commitment items state fit => by
      refine ⟨pass commitment state.1 state.2 (fit commitment List.mem_cons_self), ?_⟩
      intro c mem
      rw [outputs_withOutputs, getElem?_updateAt]
      split
      · rename_i same
        subst same
        simpa using fit commitment List.mem_cons_self
      · exact fit c (List.mem_cons_of_mem _ mem))
    recorded
  have folded : ∀ (cs : List (Octets 33)) (w : Wallet), cs.foldl (fun state commitment =>
      (state.1.withOutputs (updateAt (f commitment) state.1.outputs commitment), state.2))
        (w, d) = (w.withOutputs (updateAll f cs w.outputs), d) := by
    intro cs
    induction cs with
    | nil => exact fun w => rfl
    | cons c cs ih => exact fun w => (ih _).trans rfl
  rw [folded] at run
  exact run

/-- What the lifecycle of transactions and outputs leaves alone. -/
def frame (w : Wallet) :
    Network × Hash256 × List ReceiveRequest × WalletKeychainState × Option String :=
  (w.network, w.chainId, w.receiveRequests, w.keychain, w.session)

/-- The frame is made of five fields. -/
theorem frame_eq_iff : w'.frame = w.frame ↔ w'.network = w.network ∧
    w'.chainId = w.chainId ∧ w'.receiveRequests = w.receiveRequests ∧ w'.keychain = w.keychain ∧
      w'.session = w.session := by
  simp only [frame, Prod.mk.injEq]

/-! ## Soundness -/

section Sound

variable [Primitives] [WalletBackend]

/-- **A sound wallet.** -/
structure Sound (w : Wallet) : Prop where
  keyed : ∀ (c : Octets 33) output, w.outputs[c]? = some output → output.commitment = c
  named : ∀ (x : Hash256) pending, w.pendingTxs[x]? = some pending → pending.txHash = x
  backed : ∀ (x : Hash256) pending, w.pendingTxs[x]? = some pending →
    ∀ c ∈ pending.inputs, w.outputs[c]? ≠ none
  decodes : ∀ (x : Hash256) pending, w.pendingTxs[x]? = some pending →
    ∃ candidate, receiveCandidate w.chainId (x, pending) = .ok candidate

end Sound

/-! ## Spends -/

/-- The wallet after the inputs of a built transaction were reserved. -/
def reserved (built : BuiltSpend) (w : Wallet) : Wallet :=
  insertPending built.pending (w.withOutputs (Table.updateAll
    (fun _ => OwnedOutput.reservedFor built.txHash) built.selectedCommitments w.outputs))

/-! ## Blocks -/

/-- What a block does to an input of a pending transaction it resolves. -/
def settled (consumedInputs : List (Octets 33)) (commitment : Octets 33) (output : OwnedOutput) :
    OwnedOutput :=
  { output with
    spent := output.spent || decide (commitment ∈ consumedInputs)
    reservedForTx := none }

/-- Settling twice is settling once. -/
theorem settled_settled (consumedInputs : List (Octets 33)) (c : Octets 33) (output : OwnedOutput) :
    settled consumedInputs c (settled consumedInputs c output) = settled consumedInputs c output := by
  simp [settled]

/-- A consumed input is spent. -/
theorem settled_of_mem {consumed : List (Octets 33)} {c : Octets 33} (mem : c ∈ consumed) :
    settled consumed c = fun output => { output with spent := true, reservedForTx := none } := by
  funext output
  simp [settled, mem]

/-- Another input is released. -/
theorem settled_of_not_mem {consumed : List (Octets 33)} {c : Octets 33} (mem : c ∉ consumed) :
    settled consumed c = fun output => { output with reservedForTx := none } := by
  funext output
  simp [settled, mem]

/-- The entries the change of a spend adds to the outputs. -/
def changeEntries (change : Option PendingChange) (blockHeight : Nat) (blockHash : Option Hash256) :
    List (Octets 33 × OwnedOutput) :=
  change.toList.map fun c => (c.commitment, changeOutput c blockHeight blockHash)

/-- Registering keeps what is recorded. -/
theorem registerOutput_eq (output : OwnedOutput) (w : Wallet) :
    w.registerOutput output =
      w.withOutputs (insertMissing [(output.commitment, output)] w.outputs) := by
  simp only [registerOutput, insertMissing, List.foldl_cons, List.foldl_nil, insertNew]
  cases present : w.outputs[output.commitment]? <;> rfl

/-- So does registering change. -/
theorem registerPendingChange_eq (change : Option PendingChange) (blockHeight : Nat)
    (blockHash : Option Hash256) (w : Wallet) :
    w.registerPendingChange change blockHeight blockHash =
      w.withOutputs
        (insertMissing (changeEntries change blockHeight blockHash) w.outputs) := by
  cases change with
  | none => rfl
  | some c => exact registerOutput_eq _ w

/-- The wallet after a block has resolved one pending transaction. -/
def resolve (consumedInputs : List (Octets 33)) (blockHeight : Nat) (blockHash : Option Hash256)
    (w : Wallet) (txHash : Hash256) : Wallet :=
  match w.pendingTxs[txHash]? with
  | none => w
  | some pending => (w.removePending txHash).withOutputs
      (Table.insertMissing (changeEntries pending.change blockHeight blockHash)
        (Table.updateAll (settled consumedInputs) pending.inputs w.outputs))

variable {consumed : List (Octets 33)} {height : Nat} {hash : Option Hash256}

/-- Settling a recorded input succeeds. -/
theorem runs_settleInput (commitment : Octets 33) (w : Wallet) (d : Drive)
    (recorded : w.outputs[commitment]? ≠ none) :
    Runs (settleInput consumed commitment) w d (.ok ())
      (w.withOutputs (updateAt (settled consumed commitment) w.outputs commitment)) d := by
  unfold settleInput spendIfConsumed
  by_cases mem : commitment ∈ consumed
  · rw [if_pos mem]
    refine (runs_onOutputs (OutputIndex.change_of_mem recorded) d).bind ?_
    have still : (w.withOutputs (updateAt (fun output => { output with spent := true })
        w.outputs commitment)).outputs[commitment]? ≠ none := by
      simpa [getElem?_updateAt] using recorded
    have run := runs_onOutputs (OutputIndex.change_of_mem
      (f := fun output => { output with reservedForTx := none }) still) d
    rw [outputs_withOutputs, updateAt_updateAt] at run
    rw [settled_of_mem mem]
    exact run
  · rw [if_neg mem]
    refine (runs_pure () w d).bind ?_
    rw [settled_of_not_mem mem]
    exact runs_onOutputs (OutputIndex.change_of_mem
      (f := fun output => { output with reservedForTx := none }) recorded) d

/-- Resolving a backed transaction succeeds. -/
theorem runs_resolvePending (w : Wallet) (d : Drive) {txHash : Hash256} {pending : PendingTx}
    (tracked : w.pendingTxs[txHash]? = some pending)
    (backed : ∀ c ∈ pending.inputs, w.outputs[c]? ≠ none) :
    Runs (resolvePending consumed height hash txHash) w d (.ok ())
      (resolve consumed height hash w txHash) (d.append ⟨txHash, .confirmed height⟩) := by
  refine (runs_recordJournal txHash (.confirmed height) w d).bind ?_
  refine (runs_get w _).bind ?_
  rw [tracked]
  refine (runs_modify _ w _).bind ?_
  refine (runs_forEach_change (w := w.removePending txHash) runs_settleInput backed
    (d.append ⟨txHash, .confirmed height⟩)).bind ?_
  have result : resolve consumed height hash w txHash = registerPendingChange pending.change height
      hash ((w.removePending txHash).withOutputs (updateAll (settled consumed) pending.inputs
        (w.removePending txHash).outputs)) := by
    rw [registerPendingChange_eq]
    unfold resolve
    rw [tracked]
    rfl
  rw [result]
  exact runs_modify _ _ _

/-- Resolving keeps the frame. -/
theorem frame_resolve (w : Wallet) (x : Hash256) :
    (resolve consumed height hash w x).frame = w.frame := by
  unfold resolve
  split <;> rfl

/-- What is left pending after one transaction was resolved. -/
theorem getElem?_pendingTxs_resolve (w : Wallet) (x k : Hash256) :
    (resolve consumed height hash w x).pendingTxs[k]? =
      if x = k then none else w.pendingTxs[k]? := by
  unfold resolve
  cases tracked : w.pendingTxs[x]? with
  | none =>
    by_cases same : x = k
    · rw [if_pos same, ← same, tracked]
    · rw [if_neg same]
  | some pending => exact getElem?_erase _ _ _

/-- The outputs after one transaction was resolved. -/
theorem getElem?_outputs_resolve (w : Wallet) {x : Hash256} {pending : PendingTx}
    (tracked : w.pendingTxs[x]? = some pending) (c : Octets 33) :
    (resolve consumed height hash w x).outputs[c]? =
      (if c ∈ pending.inputs then (w.outputs[c]?).map (settled consumed c) else w.outputs[c]?).or
        ((changeEntries pending.change height hash).lookup c) := by
  unfold resolve
  rw [tracked]
  dsimp only
  rw [outputs_withOutputs, getElem?_insertMissing,
    getElem?_updateAll (settled_settled consumed)]

/-- An output is an input of one of the listed pending transactions. -/
def Touches (w : Wallet) (txHashes : List Hash256) (c : Octets 33) : Prop :=
  ∃ x ∈ txHashes, ∃ pending, w.pendingTxs[x]? = some pending ∧ c ∈ pending.inputs

/-- The entries the change of the listed pending transactions adds. -/
def changesOf (height : Nat) (hash : Option Hash256) (w : Wallet) (txHashes : List Hash256) :
    List (Octets 33 × OwnedOutput) :=
  txHashes.flatMap fun x =>
    match w.pendingTxs[x]? with
    | some pending => changeEntries pending.change height hash
    | none => []

/-- The inputs of the pending transactions are recorded. -/
def Backed (w : Wallet) : Prop :=
  ∀ (x : Hash256) pending, w.pendingTxs[x]? = some pending →
    ∀ c ∈ pending.inputs, w.outputs[c]? ≠ none

/-- Resolving keeps what backs the others. -/
theorem resolve_backed (backed : w.Backed) (x : Hash256) :
    (resolve consumed height hash w x).Backed := by
  intro y pending tracked c mem
  rw [getElem?_pendingTxs_resolve] at tracked
  split at tracked
  · cases tracked
  · cases resolved : w.pendingTxs[x]? with
    | none =>
      unfold resolve
      rw [resolved]
      exact backed y pending tracked c mem
    | some p =>
      rw [getElem?_outputs_resolve w resolved]
      have recorded := backed y pending tracked c mem
      obtain ⟨output, houtput⟩ := Option.ne_none_iff_exists'.mp recorded
      rw [houtput]
      split <;> simp

/-- The pending transactions after several were resolved. -/
theorem getElem?_pendingTxs_foldl_resolve (w : Wallet) (xs : List Hash256) (k : Hash256) :
    (xs.foldl (resolve consumed height hash) w).pendingTxs[k]? =
      if k ∈ xs then none else w.pendingTxs[k]? := by
  induction xs generalizing w with
  | nil => simp
  | cons x xs ih =>
    rw [List.foldl_cons, ih, getElem?_pendingTxs_resolve]
    by_cases same : x = k
    · simp [same]
    · have other : ¬ k = x := fun h => same h.symm
      simp [same, other]

open scoped Classical in
/-- **The outputs after several were resolved.** -/
theorem getElem?_outputs_foldl_resolve (backed : w.Backed) {xs : List Hash256}
    (nodup : xs.Nodup) (c : Octets 33) :
    (xs.foldl (resolve consumed height hash) w).outputs[c]? =
      match w.outputs[c]? with
      | some output => some (if w.Touches xs c then settled consumed c output else output)
      | none => (changesOf height hash w xs).lookup c := by
  induction xs generalizing w with
  | nil =>
    cases recorded : w.outputs[c]? with
    | none => simpa [changesOf] using recorded
    | some output => simpa [Touches] using recorded
  | cons x xs ih =>
    obtain ⟨fresh, nodup⟩ := List.nodup_cons.mp nodup
    rw [List.foldl_cons, ih (resolve_backed backed x) nodup]
    -- the later transactions are the same before and after the first one
    have later : ∀ y ∈ xs, (resolve consumed height hash w x).pendingTxs[y]? =
        w.pendingTxs[y]? := by
      intro y mem
      rw [getElem?_pendingTxs_resolve, if_neg (fun h : x = y => fresh (h ▸ mem))]
    have touches : (resolve consumed height hash w x).Touches xs c ↔ w.Touches xs c := by
      refine exists_congr fun y => and_congr_right fun mem => ?_
      rw [later y mem]
    have changes : changesOf height hash (resolve consumed height hash w x) xs =
        changesOf height hash w xs := by
      refine List.flatMap_congr fun y mem => ?_
      rw [later y mem]
    rw [changes]
    cases tracked : w.pendingTxs[x]? with
    | none =>
      have same : resolve consumed height hash w x = w := by
        unfold resolve
        rw [tracked]
      simp [same, Touches, changesOf, tracked]
    | some pending =>
      rw [getElem?_outputs_resolve w tracked]
      cases recorded : w.outputs[c]? with
      | some output =>
        by_cases mem : c ∈ pending.inputs
        · have all : w.Touches (x :: xs) c := ⟨x, List.mem_cons_self, pending, tracked, mem⟩
          simp only [mem, if_true, Option.map_some, Option.some_or, if_pos all, touches]
          split <;> simp only [settled_settled]
        · have all : w.Touches (x :: xs) c ↔ w.Touches xs c := by
            simp [Touches, tracked, mem]
          simp only [mem, if_false, Option.some_or, touches, all]
      | none =>
        -- an output that is not recorded is no input of a pending transaction
        have apart : ∀ ys, ¬ w.Touches ys c := by
          rintro ys ⟨y, -, p, hp, mem⟩
          exact backed y p hp c mem recorded
        have unused : c ∉ pending.inputs := fun mem => backed x pending tracked c mem recorded
        simp only [unused, if_false, Option.none_or, touches, apart, changesOf,
          List.flatMap_cons, tracked, List.lookup_append]
        cases (changeEntries pending.change height hash).lookup c <;> simp

/-! ### Answered slates -/

/-- The directory after an answered slate was recorded as received. -/
def noteReceive (height : Nat) (hash : Option Hash256) (d : Drive)
    (receive : PendingReceiveCandidate) : Drive :=
  if isReceived d.records receive.txHash then d
  else d.append ⟨receive.txHash, receive.event height hash⟩

/-- The wallet after an answered slate was settled. -/
def receive (height : Nat) (hash : Option Hash256) (w : Wallet)
    (candidate : PendingReceiveCandidate) : Wallet :=
  (w.removePending candidate.txHash).registerOutput (candidate.output height hash)

/-- The entries answered slates add to the outputs. -/
def receiveEntries (height : Nat) (hash : Option Hash256)
    (receives : List PendingReceiveCandidate) : List (Octets 33 × OwnedOutput) :=
  receives.map fun candidate => (candidate.commitment, candidate.output height hash)

/-- A confirmed slate is recorded once. -/
theorem runs_recordReceive (candidate : PendingReceiveCandidate) (w : Wallet) (d : Drive) :
    Runs (recordReceiveConfirmedIfNeeded candidate height hash) w d (.ok ()) w
      (noteReceive height hash d candidate) := by
  refine (runs_replayJournal w d).bind ?_
  unfold noteReceive
  split
  · exact runs_pure () w d
  · exact runs_recordJournal _ _ w d

/-- Settling answered slates succeeds. -/
theorem runs_forEach_settleReceive (receives : List PendingReceiveCandidate) (w : Wallet)
    (d : Drive) :
    Runs (Act.forEach (settleReceive height hash) receives) w d (.ok ())
      (receives.foldl (receive height hash) w) (receives.foldl (noteReceive height hash) d) := by
  induction receives generalizing w d with
  | nil => exact runs_pure () w d
  | cons candidate receives ih =>
    have first : Runs (settleReceive height hash candidate) w d (.ok ())
        (receive height hash w candidate) (noteReceive height hash d candidate) :=
      (runs_recordReceive candidate w d).bind ((runs_modify _ _ _).bind
        (runs_modify _ _ _))
    exact first.bind (ih _ _)

/-- Their outputs are registered. -/
theorem outputs_foldl_receive (receives : List PendingReceiveCandidate) (w : Wallet) :
    (receives.foldl (receive height hash) w).outputs =
      insertMissing (receiveEntries height hash receives) w.outputs := by
  induction receives generalizing w with
  | nil => rfl
  | cons candidate receives ih =>
    rw [List.foldl_cons, ih, receive, registerOutput_eq]
    rfl

/-- They are pending no longer. -/
theorem getElem?_pendingTxs_foldl_receive (receives : List PendingReceiveCandidate) (w : Wallet)
    (k : Hash256) :
    (receives.foldl (receive height hash) w).pendingTxs[k]? =
      if k ∈ receives.map (·.txHash) then none else w.pendingTxs[k]? := by
  induction receives generalizing w with
  | nil => simp
  | cons candidate receives ih =>
    rw [List.foldl_cons, ih, receive, registerOutput_eq, pendingTxs_withOutputs]
    have removed : (removePending candidate.txHash w).pendingTxs[k]? =
        if candidate.txHash = k then none else w.pendingTxs[k]? := getElem?_erase _ _ _
    rw [removed]
    by_cases same : candidate.txHash = k
    · simp [same]
    · have other : ¬ k = candidate.txHash := fun h => same h.symm
      simp [same, other]

section Backend

variable [Primitives] [WalletBackend]

/-- The answered slate of a pending entry. -/
def Answers (w : Wallet) (candidate : PendingReceiveCandidate) : Prop :=
  ∃ (x : Hash256) (pending : PendingTx), w.pendingTxs[x]? = some pending ∧
    receiveCandidate w.chainId (x, pending) = .ok (some candidate)

/-- The answered slates of a wallet are those of its pending entries. -/
theorem mem_pendingReceiveCandidates {candidates : List PendingReceiveCandidate}
    (decoded : w.pendingReceiveCandidates = .ok candidates) {candidate : PendingReceiveCandidate} :
    candidate ∈ candidates ↔ w.Answers candidate := by
  simp only [pendingReceiveCandidates, bind_eq_ok, pure_eq_ok] at decoded
  obtain ⟨found, hfound, rfl⟩ := decoded
  simp only [List.mem_filterMap, id_eq, exists_eq_right, mem_of_mapM_eq_ok hfound, Answers,
    Prod.exists, Std.ExtTreeMap.mem_toList_iff_getElem?_eq_some]

/-- The answered slates of a wallet decode if each does. -/
theorem exists_pendingReceiveCandidates
    (decodes : ∀ (x : Hash256) pending, w.pendingTxs[x]? = some pending →
      ∃ candidate, receiveCandidate w.chainId (x, pending) = .ok candidate) :
    ∃ candidates, w.pendingReceiveCandidates = .ok candidates := by
  have each : ∀ entry ∈ w.pendingTxs.toList,
      ∃ candidate, receiveCandidate w.chainId entry = .ok candidate := by
    rintro ⟨x, pending⟩ mem
    exact decodes x pending (Std.ExtTreeMap.mem_toList_iff_getElem?_eq_some.mp mem)
  obtain ⟨found, hfound⟩ := exists_mapM_eq_ok each
  exact ⟨found.filterMap id, by simp only [pendingReceiveCandidates, hfound, ok_bind]; rfl⟩

/-- The answered slates with an output in the block. -/
theorem exists_confirmedReceives
    (decodes : ∀ (x : Hash256) pending, w.pendingTxs[x]? = some pending →
      ∃ candidate, receiveCandidate w.chainId (x, pending) = .ok candidate)
    (created : List (Octets 33)) :
    ∃ receives, w.confirmedReceives created = .ok receives ∧
      ∀ candidate, candidate ∈ receives ↔
        w.Answers candidate ∧ candidate.commitment ∈ created := by
  unfold confirmedReceives
  by_cases empty : created = []
  · rw [if_pos empty]
    exact ⟨[], rfl, by simp [empty]⟩
  · obtain ⟨candidates, decoded⟩ := exists_pendingReceiveCandidates decodes
    rw [if_neg empty, decoded, ok_bind]
    refine ⟨_, rfl, fun candidate => ?_⟩
    simp only [List.mem_filter, mem_pendingReceiveCandidates decoded, List.contains_iff_mem]

/-! ### The scan -/

/-- The entries the scan of a block adds to the outputs. -/
def scanEntries (transactions : List Transaction) (height : Nat) (hash : Option Hash256)
    (w : Wallet) : List (Octets 33 × OwnedOutput) :=
  match w.session with
  | none => []
  | some password =>
    match w.coinbaseBlindingForHeight height password with
    | .error _ => []
    | .ok blinding => (transactions.flatMap (·.outputKeys)).filterMap fun c =>
      (matchedValue blinding height (scanFees transactions) c).map fun value =>
        (c, .new c value blinding height true hash)

/-- The scan registers what it finds. -/
theorem scanBlockWithHash_eq (transactions : List Transaction) (w : Wallet) :
    w.scanBlockWithHash transactions height hash =
      w.withOutputs (insertMissing (scanEntries transactions height hash w) w.outputs) := by
  unfold scanBlockWithHash scanEntries
  cases w.session with
  | none => rfl
  | some password =>
    dsimp only
    cases w.coinbaseBlindingForHeight height password with
    | error e => rfl
    | ok blinding =>
      dsimp only
      generalize scanFees transactions = fees
      induction transactions.flatMap (·.outputKeys) generalizing w with
      | nil => rfl
      | cons c cs ih =>
        rw [List.foldl_cons, List.filterMap_cons]
        cases matched : matchedValue blinding height fees c with
        | none =>
          cases recorded : w.outputs[c]? <;> exact ih w
        | some value =>
          cases recorded : w.outputs[c]? with
          | some output =>
            refine (ih w).trans ?_
            simp [insertMissing, insertNew, recorded]
          | none =>
            refine (ih _).trans ?_
            simp [insertMissing, insertNew, recorded, addOutput, withOutputs, OwnedOutput.new]

/-- What a scan finds is an output of the block. -/
theorem mem_scanEntries {transactions : List Transaction}
    {entry : Octets 33 × OwnedOutput} (mem : entry ∈ scanEntries transactions height hash w) :
    entry.1 ∈ transactions.flatMap (·.outputKeys) ∧ ∃ value blinding,
      entry.2 = .new entry.1 value blinding height true hash := by
  unfold scanEntries at mem
  split at mem
  · simp at mem
  · split at mem
    · simp at mem
    · simp only [List.mem_filterMap, Option.map_eq_some_iff] at mem
      obtain ⟨c, hc, value, -, rfl⟩ := mem
      exact ⟨hc, value, _, rfl⟩

/-! ### The whole block -/

omit [Primitives] [WalletBackend] in
/-- No transaction is resolved twice. -/
theorem nodup_resolvedBy (consumed : List (Octets 33)) (w : Wallet) :
    (w.resolvedBy consumed).Nodup :=
  (nodup_keys_toList w.pendingTxs).sublist
    ((List.filter_sublist).map Prod.fst)

omit [Primitives] [WalletBackend] in
/-- A block resolves the pending transactions it shares an input with. -/
theorem mem_resolvedBy {x : Hash256} :
    x ∈ w.resolvedBy consumed ↔ ∃ pending, w.pendingTxs[x]? = some pending ∧
      ∃ c ∈ pending.inputs, c ∈ consumed := by
  simp [resolvedBy, Std.ExtTreeMap.mem_toList_iff_getElem?_eq_some]

/-- The wallet after the pending transactions a block shares an input with were resolved. -/
def resolveAll (order : IterOrder Hash256) (transactions : List Transaction) (height : Nat)
    (hash : Option Hash256) (w : Wallet) : Wallet :=
  (order.arrange (w.resolvedBy (transactions.flatMap (·.inputKeys)))).foldl
    (resolve (transactions.flatMap (·.inputKeys)) height hash) w

/-- **The wallet after a block.** -/
def applied (order : IterOrder Hash256) (transactions : List Transaction) (height : Nat)
    (hash : Option Hash256) (receives : List PendingReceiveCandidate) (w : Wallet) : Wallet :=
  (receives.foldl (receive height hash)
    (w.resolveAll order transactions height hash)).scanBlockWithHash transactions height hash

/-- The directory after the entries of a block. -/
def journalled (order : IterOrder Hash256) (transactions : List Transaction) (height : Nat)
    (hash : Option Hash256) (receives : List PendingReceiveCandidate) (w : Wallet) (d : Drive) :
    Drive :=
  receives.foldl (noteReceive height hash)
    ((order.arrange (w.resolvedBy (transactions.flatMap (·.inputKeys)))).foldl
      (fun d x => d.append ⟨x, .confirmed height⟩) d)

variable {order : IterOrder Hash256} {transactions : List Transaction}
  {receives : List PendingReceiveCandidate}

omit [WalletBackend] in
/-- Resolving all keeps the frame. -/
theorem frame_resolveAll : (w.resolveAll order transactions height hash).frame = w.frame := by
  unfold resolveAll
  induction order.arrange (w.resolvedBy (transactions.flatMap (·.inputKeys))) generalizing w with
  | nil => rfl
  | cons x xs ih => exact ih.trans (frame_resolve w x)

omit [Primitives] [WalletBackend] in
/-- Settling slates keeps the frame. -/
theorem frame_foldl_receive : (receives.foldl (receive height hash) w).frame = w.frame := by
  induction receives generalizing w with
  | nil => rfl
  | cons candidate receives ih => exact ih.trans (by rw [receive, registerOutput_eq]; rfl)

/-- **Applying a block keeps the frame.** -/
theorem frame_applied (w : Wallet) :
    (applied order transactions height hash receives w).frame = w.frame := by
  unfold applied
  rw [scanBlockWithHash_eq]
  exact frame_foldl_receive.trans frame_resolveAll

/-- What the scan finds depends on the frame. -/
theorem scanEntries_congr {w w' : Wallet} (same : w'.frame = w.frame) :
    scanEntries transactions height hash w' = scanEntries transactions height hash w := by
  obtain ⟨-, -, -, keychain, session⟩ := frame_eq_iff.mp same
  unfold scanEntries coinbaseBlindingForHeight
  rw [session, keychain]

omit [WalletBackend] in
/-- The first part of a block: resolving pending transactions. -/
theorem runs_resolveAll (backed : w.Backed) (d : Drive) :
    Runs (Act.forEach (resolvePending (transactions.flatMap (·.inputKeys)) height hash)
        (order.arrange (w.resolvedBy (transactions.flatMap (·.inputKeys))))) w d (.ok ())
      (w.resolveAll order transactions height hash)
      ((order.arrange (w.resolvedBy (transactions.flatMap (·.inputKeys)))).foldl
        (fun d x => d.append ⟨x, .confirmed height⟩) d) := by
  unfold resolveAll
  generalize transactions.flatMap (·.inputKeys) = consumed
  have tracked : ∀ x ∈ order.arrange (w.resolvedBy consumed), w.pendingTxs[x]? ≠ none := by
    intro x mem
    obtain ⟨pending, hpending, -⟩ := mem_resolvedBy.mp (order.mem_arrange.mp mem)
    simp [hpending]
  have nodup := (order.perm _).nodup_iff.mpr (nodup_resolvedBy consumed w)
  generalize order.arrange (w.resolvedBy consumed) = xs at tracked nodup
  induction xs generalizing w d with
  | nil => exact runs_pure () w d
  | cons x xs ih =>
    obtain ⟨fresh, nodup⟩ := List.nodup_cons.mp nodup
    obtain ⟨pending, hpending⟩ :=
      Option.ne_none_iff_exists'.mp (tracked x List.mem_cons_self)
    refine (runs_resolvePending w d hpending (backed x pending hpending)).bind
      (ih (resolve_backed backed x) _ ?_ nodup)
    intro y mem
    rw [getElem?_pendingTxs_resolve, if_neg (fun h : x = y => fresh (h ▸ mem))]
    exact tracked y (List.mem_cons_of_mem _ mem)

/-- What a block does comes before the save. -/
theorem runs_applyCanonicalBlock_of_save {w w' : Wallet} {d d' : Drive} (backed : w.Backed)
    (decoded : (w.resolveAll order transactions height hash).confirmedReceives
      (transactions.flatMap (·.outputKeys)) = .ok receives) {outcome : Except WalletError Unit}
    (saved : Runs save (applied order transactions height hash receives w)
      (journalled order transactions height hash receives w d) outcome w' d') :
    Runs (applyCanonicalBlockWithHash order transactions height hash) w d outcome w' d' := by
  refine (runs_get w d).bind ((runs_resolveAll backed d).bind ((runs_get _ _).bind ?_))
  rw [decoded]
  exact (runs_lift _ _ _).bind ((runs_forEach_settleReceive receives _ _).bind
    ((runs_modify _ _ _).bind saved))

open scoped Classical in
/-- **The outputs after a block.** -/
theorem getElem?_outputs_applied (backed : w.Backed) (c : Octets 33) :
    (applied order transactions height hash receives w).outputs[c]? =
      match w.outputs[c]? with
      | some output => some
          (if w.Touches (w.resolvedBy (transactions.flatMap (·.inputKeys))) c then
            settled (transactions.flatMap (·.inputKeys)) c output else output)
      | none => (changesOf height hash w
          (order.arrange (w.resolvedBy (transactions.flatMap (·.inputKeys)))) ++
          receiveEntries height hash receives ++ scanEntries transactions height hash w).lookup c := by
  have nodup := (order.perm _).nodup_iff.mpr
    (nodup_resolvedBy (transactions.flatMap (·.inputKeys)) w)
  have touches : w.Touches (order.arrange (w.resolvedBy (transactions.flatMap (·.inputKeys)))) c ↔
      w.Touches (w.resolvedBy (transactions.flatMap (·.inputKeys))) c :=
    exists_congr fun x => and_congr_left fun _ => order.mem_arrange
  unfold applied
  rw [scanBlockWithHash_eq, outputs_withOutputs, getElem?_insertMissing,
    scanEntries_congr (frame_foldl_receive.trans frame_resolveAll), outputs_foldl_receive,
    getElem?_insertMissing, resolveAll, getElem?_outputs_foldl_resolve backed nodup]
  cases w.outputs[c]? with
  | some output => simp only [Option.some_or, touches]
  | none => simp only [List.lookup_append]

/-- **What is pending after a block.** -/
theorem getElem?_pendingTxs_applied (w : Wallet) (k : Hash256) :
    (applied order transactions height hash receives w).pendingTxs[k]? =
      if k ∈ w.resolvedBy (transactions.flatMap (·.inputKeys)) ∨ k ∈ receives.map (·.txHash)
      then none else w.pendingTxs[k]? := by
  unfold applied
  rw [scanBlockWithHash_eq, pendingTxs_withOutputs, getElem?_pendingTxs_foldl_receive, resolveAll,
    getElem?_pendingTxs_foldl_resolve]
  simp only [order.mem_arrange]
  by_cases received : k ∈ receives.map (·.txHash) <;> simp [received]

end Backend

end Wallet

end DomProtocol.DomWallet
