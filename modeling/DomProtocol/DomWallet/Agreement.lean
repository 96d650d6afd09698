import DomProtocol.DomWallet.Effects
import DomProtocol.Run

/-! # The wallet and the chain

A wallet follows a chain: spends are built, reserved, submitted, failed and cancelled while the
blocks of the chain are applied one after another (**`Step`**). The wallet **`Agrees`** with the
chain if what the chain consumed is marked spent and what is recorded as unspent is there to be
spent.

An input of a block is marked spent only if a pending transaction has it, and a pending transaction
that shares an input with the block is taken for confirmed. The wallet keeps agreeing as long as
every step **`Heeds`** this (**`agrees_of_heeding`**), and not otherwise
(`cancelled_spend_is_forgotten`). -/

namespace DomProtocol.DomWallet

open OutputIndex

open Table

open OwnedOutput

open Ledger

/-! ## What calls do to the outputs -/

theorem OwnedOutput.of_unreserved {a b : OwnedOutput} (same : a.unreserved = b.unreserved) :
    a.commitment = b.commitment ∧ a.spent = b.spent ∧ a.blockHeight = b.blockHeight ∧
      a.isCoinbase = b.isCoinbase := by
  simp only [unreserved, mk.injEq] at same
  obtain ⟨hcommitment, -, -, hheight, -, hcoinbase, hspent, -⟩ := same
  exact ⟨hcommitment, hspent, hheight, hcoinbase⟩

/-- Two indexes hold the same outputs, reservations apart. -/
def Alike (outputs outputs' : OutputIndex) : Prop :=
  ∀ c : Octets 33, (outputs[c]?).map OwnedOutput.unreserved =
    (outputs'[c]?).map OwnedOutput.unreserved

theorem Alike.refl (outputs : OutputIndex) : Alike outputs outputs := fun _ => rfl

variable {c : Octets 33}

variable {output : OwnedOutput}

theorem Alike.trans {a b c : OutputIndex} (first : Alike a b) (second : Alike b c) : Alike a c :=
  fun k => (first k).trans (second k)

/-- The output behind a commitment, on the other side. -/
theorem Alike.exists {a b : OutputIndex} (alike : Alike a b) (recorded : b[c]? = some output) :
    ∃ output', a[c]? = some output' ∧ output'.unreserved = output.unreserved := by
  have same := alike c
  rw [recorded, Option.map_some] at same
  obtain ⟨output', houtput', hsame⟩ := Option.map_eq_some_iff.mp same
  exact ⟨output', houtput', hsame⟩

theorem Alike.recorded {a b : OutputIndex} (alike : Alike a b)
    (recorded : a[c]? ≠ none) : b[c]? ≠ none := by
  intro missing
  have same := alike c
  rw [missing, Option.map_none, Option.map_eq_none_iff] at same
  exact recorded same

/-- Changing reservations keeps the outputs alike. -/
theorem alike_updateAll {f : Octets 33 → OwnedOutput → OwnedOutput}
    (idem : ∀ c output, f c (f c output) = f c output)
    (reserves : ∀ c output, (f c output).unreserved = output.unreserved)
    (commitments : List (Octets 33)) (outputs : OutputIndex) :
    Alike outputs (updateAll f commitments outputs) := by
  intro c
  rw [getElem?_updateAll idem]
  split
  · cases outputs[c]? with
    | none => rfl
    | some output => simp [reserves]
  · rfl

section Calls

variable [Primitives] [WalletBackend]

namespace Wallet

variable {w w' : Wallet} {d d' : Drive} {outcome : Except WalletError Unit} {x : Hash256}

/-- What a call on pending transactions leaves of the wallet. -/
structure Kept (w w' : Wallet) : Prop where
  sound : w'.Sound
  frame : w'.frame = w.frame
  alike : Alike w.outputs w'.outputs

theorem Sound.kept (sound : w.Sound) : Kept w w := ⟨sound, rfl, .refl _⟩

/-- A wallet whose outputs are alike and whose pending transactions are backed, named and decode is
kept. -/
theorem Sound.keeps (sound : w.Sound) (frame : w'.frame = w.frame)
    (alike : Alike w.outputs w'.outputs)
    (pending : ∀ (x : Hash256) (pending : PendingTx), w'.pendingTxs[x]? = some pending →
      w.pendingTxs[x]? = some pending ∨
        (pending.txHash = x ∧ (∀ c ∈ pending.inputs, w.outputs[c]? ≠ none) ∧
          pending.receiveSlate = none)) : Kept w w' where
  frame := frame
  alike := alike
  sound := by
    have chainId : w'.chainId = w.chainId := (frame_eq_iff.mp frame).2.1
    refine ⟨?_, ?_, ?_, ?_⟩
    · intro c output recorded
      obtain ⟨output', houtput', same⟩ := alike.exists recorded
      have key := sound.keyed c output' houtput'
      exact (of_unreserved same).1.symm.trans key
    · intro x p tracked
      rcases pending x p tracked with old | ⟨named, -, -⟩
      · exact sound.named x p old
      · exact named
    · intro x p tracked c mem
      rcases pending x p tracked with old | ⟨-, backed, -⟩
      · exact alike.recorded (sound.backed x p old c mem)
      · exact alike.recorded (backed c mem)
    · intro x p tracked
      rw [chainId]
      rcases pending x p tracked with old | ⟨-, -, none⟩
      · exact sound.decodes x p old
      · exact ⟨Option.none, by simp [receiveCandidate, none]⟩

omit [Primitives] [WalletBackend] in
/-- Reserving inputs, all of them recorded or not. -/
theorem exists_runs_forEach_reserve (txHash : Hash256) (commitments : List (Octets 33)) (w : Wallet)
    (d : Drive) :
    ∃ outcome outputs, Runs (Act.forEach (fun commitment =>
        onOutputs (reserve commitment txHash)) commitments) w d outcome
        (w.withOutputs outputs) d ∧ Alike w.outputs outputs ∧
      (outcome = .ok () → ∀ c ∈ commitments, w.outputs[c]? ≠ none) := by
  induction commitments generalizing w with
  | nil => exact ⟨.ok (), w.outputs, Act.runs_pure () w d, .refl _, by simp⟩
  | cons c commitments ih =>
    by_cases recorded : w.outputs[c]? = none
    · refine ⟨.error (missing c), w.outputs, ?_, .refl _, by simp⟩
      refine Act.Runs.bind_error ((Act.runs_get w d).bind (Act.Runs.bind_error ?_))
      have failed : reserve c txHash w.outputs = .error (missing c) := by
        simp [reserve, change, recorded]
      rw [failed]
      exact Act.runs_lift _ w d
    · have changed := change_of_mem (f := reservedFor txHash) recorded
      obtain ⟨outcome, outputs, run, alike, all⟩ := ih
        (w.withOutputs (updateAt (reservedFor txHash) w.outputs c))
      have first : Alike w.outputs
          (updateAt (reservedFor txHash) w.outputs c) :=
        alike_updateAll (f := fun _ => reservedFor txHash)
          (fun _ _ => rfl) (fun _ _ => rfl) [c] w.outputs
      refine ⟨outcome, outputs, (runs_onOutputs changed d).bind run, first.trans alike, ?_⟩
      intro success c' mem
      rcases List.mem_cons.mp mem with rfl | mem
      · exact recorded
      · intro missing
        have later := all success c' mem
        rw [outputs_withOutputs, getElem?_updateAt] at later
        split at later
        · rename_i same
          exact recorded (same ▸ missing)
        · exact later missing

/-- Reserving a built transaction. -/
theorem kept_reserveBuiltSpend {built : BuiltSpend} (sound : w.Sound)
    (run : Runs (reserveBuiltSpend built) w d outcome w' d') : Kept w w' := by
  obtain ⟨result, outputs, loop, alike, all⟩ := exists_runs_forEach_reserve built.txHash
    built.selectedCommitments w (d.append ⟨built.txHash, built.event⟩)
  have journal := runs_recordJournal built.txHash built.event w d
  cases result with
  | error e =>
    obtain ⟨-, rfl, -⟩ := run.unique (journal.bind (Act.Runs.bind_error loop))
    exact sound.keeps rfl alike fun x p tracked => .inl tracked
  | ok u =>
    obtain ⟨_, _, saved⟩ := exists_runs_save (insertPending built.pending (w.withOutputs outputs))
      (d.append ⟨built.txHash, built.event⟩)
    obtain ⟨-, rfl, -⟩ := run.unique (journal.bind (loop.bind ((Act.runs_modify _ _ _).bind saved)))
    refine sound.keeps rfl alike fun x p tracked => ?_
    have entered : (insertPending built.pending (w.withOutputs outputs)).pendingTxs[x]? =
        if built.txHash = x then some built.pending else w.pendingTxs[x]? :=
      getElem?_insert _ _ _ _
    rw [entered] at tracked
    split at tracked
    · rename_i same
      cases tracked
      exact .inr ⟨same, all rfl, rfl⟩
    · exact .inl tracked

omit [Primitives] [WalletBackend] in
theorem runs_trackedTx_none (untracked : w.pendingTxs[x]? = none)
    (d : Drive) : Runs (trackedTx x) w d (.error pendingTxNotFound) w d := by
  refine (Act.runs_get w d).bind ?_
  rw [untracked]
  exact Act.runs_lift _ w d

/-- Cancelling a transaction. -/
theorem kept_cancelTx (sound : w.Sound)
    (run : Runs (cancelTx x) w d outcome w' d') : Kept w w' := by
  cases tracked : w.pendingTxs[x]? with
  | none =>
    obtain ⟨-, rfl, -⟩ := run.unique (Act.Runs.bind_error (runs_trackedTx_none tracked d))
    exact sound.kept
  | some pending =>
    have loop : Runs (Act.forEach (fun commitment =>
        onOutputs (releaseReservation commitment)) pending.inputs) w
        (d.append ⟨x, .canceled⟩) _ _ _ :=
      runs_forEach_change (f := fun _ => unreserved)
        (fun c w d recorded => runs_onOutputs (change_of_mem recorded) d)
        (sound.backed x pending tracked) _
    obtain ⟨_, _, saved⟩ := exists_runs_save (removePending x (w.withOutputs
      (updateAll (fun _ => unreserved) pending.inputs w.outputs)))
      (d.append ⟨x, .canceled⟩)
    obtain ⟨-, rfl, -⟩ := run.unique ((runs_trackedTx tracked d).bind
      ((runs_recordJournal x .canceled w d).bind (loop.bind ((Act.runs_modify _ _ _).bind saved))))
    refine sound.keeps rfl (alike_updateAll (f := fun _ => unreserved)
      (fun _ _ => rfl) (fun _ _ => rfl) pending.inputs w.outputs) fun y p hp => ?_
    have erased : (removePending x (w.withOutputs (updateAll
        (fun _ => unreserved) pending.inputs w.outputs))).pendingTxs[y]? =
        if x = y then none else w.pendingTxs[y]? := getElem?_erase _ _ _
    rw [erased] at hp
    split at hp
    · cases hp
    · exact .inl hp

/-- Submissions and their failures are only journalled. -/
theorem kept_journal {event : TxJournalEvent} (sound : w.Sound)
    (run : Runs (do let _ ← trackedTx x; recordJournal x event) w d outcome w' d') : Kept w w' := by
  cases tracked : w.pendingTxs[x]? with
  | none =>
    obtain ⟨-, rfl, -⟩ := run.unique (Act.Runs.bind_error (runs_trackedTx_none tracked d))
    exact sound.kept
  | some pending =>
    obtain ⟨-, rfl, -⟩ := run.unique ((runs_trackedTx tracked d).bind
      (runs_recordJournal x event w d))
    exact sound.kept

/-- Building a spend and reserving its inputs. -/
theorem kept_buildSpend {order : IterOrder OwnedOutput}
    {draws : Draws} {recipientBlinding : Octets 32} {amount fee : UInt64} {currentHeight : Nat}
    {outcome : Except WalletError BuiltSpend} (sound : w.Sound)
    (run : Runs (buildSpend order draws recipientBlinding amount fee currentHeight) w d outcome
      w' d') : Kept w w' := by
  rcases (run.rest (Act.runs_get w d)).of_lift_bind with ⟨_, -, rfl, -⟩ | ⟨spend, -, run⟩
  · exact sound.kept
  obtain ⟨result, w₁, d₁, reserved⟩ := Act.exists_runs Drive.exec (reserveBuiltSpend spend) w d
  have kept := kept_reserveBuiltSpend sound reserved
  cases result with
  | error e =>
    obtain ⟨-, rfl, -⟩ := run.unique (Act.Runs.bind_error reserved)
    exact kept
  | ok u =>
    obtain ⟨-, rfl, -⟩ := run.unique (reserved.bind (Act.runs_pure spend w₁ d₁))
    exact kept

/-- Recording a coinbase to be mined adds an unspent coinbase output, or does nothing. -/
theorem eq_of_buildCoinbase {height : Nat} {totalTxFees : UInt64}
    {outcome : Except WalletError OwnedOutput}
    (run : Runs (buildCoinbase height totalTxFees) w d outcome w' d') :
    w' = w ∨ ∃ password value blinding, w.session = some password ∧
      w.coinbaseBlindingForHeight height password = .ok blinding ∧
      w' = w.addOutput (.new (commitBytes value blinding) value blinding height true none) := by
  cases unlocked : w.session with
  | none =>
    obtain ⟨-, rfl, -⟩ := run.unique (runs_requireSession_of_locked unlocked d).bind_error
    exact .inl rfl
  | some password =>
    have run := (run.rest (runs_requireSession unlocked d)).rest (Act.runs_get w d)
    rcases run.of_lift_bind with ⟨_, -, rfl, -⟩ | ⟨value, -, run⟩
    · exact .inl rfl
    rcases run.of_lift_bind with ⟨_, -, rfl, -⟩ | ⟨blinding, derived, run⟩
    · exact .inl rfl
    obtain ⟨_, _, saved⟩ := exists_runs_save (w.addOutput
      (.new (commitBytes value blinding) value blinding height true none)) d
    obtain ⟨-, rfl, -⟩ := run.unique ((Act.runs_modify _ _ _).bind
      (saved.attempt.bind (Act.runs_pure _ _ _)))
    exact .inr ⟨password, value, blinding, rfl, derived, rfl⟩

/-! ## What a block does to the outputs -/

/-- A pending transaction has the output as an input. -/
def Spends (w : Wallet) (c : Octets 33) : Prop :=
  ∃ (x : Hash256) (pending : PendingTx), w.pendingTxs[x]? = some pending ∧ c ∈ pending.inputs

/-- The output is the change of a pending transaction with one of the inputs. -/
def Returns (w : Wallet) (inputs : List (Octets 33)) (c : Octets 33) : Prop :=
  ∃ (x : Hash256) (pending : PendingTx) (change : PendingChange),
    w.pendingTxs[x]? = some pending ∧ pending.change = some change ∧ change.commitment = c ∧
      ∃ input ∈ pending.inputs, input ∈ inputs

section Block

variable {order : IterOrder Hash256} {transactions : List Transaction} {height : Nat}
  {hash : Option Hash256} {receives : List PendingReceiveCandidate}

/-- **An output that was recorded before a block**: it is settled if a pending transaction has it that
shares an input with the block. -/
theorem exists_of_applied (order : IterOrder Hash256) (transactions : List Transaction)
    (height : Nat) (hash : Option Hash256) (receives : List PendingReceiveCandidate) {w : Wallet}
    (backed : w.Backed)
    (recorded : w.outputs[c]? = some output) :
    ∃ output', (applied order transactions height hash receives w).outputs[c]? = some output' ∧
      output'.isCoinbase = output.isCoinbase ∧ output'.blockHeight = output.blockHeight ∧
      output'.commitment = output.commitment ∧
      (output'.spent = true ↔ output.spent = true ∨
        (c ∈ transactions.flatMap (·.inputKeys) ∧ w.Spends c)) := by
  rw [getElem?_outputs_applied backed, recorded]
  refine ⟨_, rfl, ?_⟩
  by_cases touched : w.Touches (w.resolvedBy (transactions.flatMap (·.inputKeys))) c
  · rw [if_pos touched]
    obtain ⟨x, -, pending, tracked, mem⟩ := touched
    refine ⟨rfl, rfl, rfl, ?_⟩
    simp only [settled, Bool.or_eq_true, decide_eq_true_eq]
    exact or_congr_right ⟨fun spent => ⟨spent, x, pending, tracked, mem⟩, And.left⟩
  · rw [if_neg touched]
    refine ⟨rfl, rfl, rfl, ⟨.inl, ?_⟩⟩
    rintro (spent | ⟨spent, x, pending, tracked, mem⟩)
    · exact spent
    · exact absurd ⟨x, mem_resolvedBy.mpr ⟨pending, tracked, c, mem, spent⟩, pending, tracked, mem⟩
        touched

/-- **An output a block brings** is unspent, and it is the change of a pending transaction that shares
an input with the block or one of the outputs of the block. -/
theorem of_applied_new {w : Wallet} (backed : w.Backed) (new : w.outputs[c]? = none)
    (received : ∀ candidate ∈ receives, candidate.commitment ∈ transactions.flatMap (·.outputKeys))
    (recorded : (applied order transactions height hash receives w).outputs[c]? = some output) :
    output.commitment = c ∧ output.spent = false ∧
      (c ∈ transactions.flatMap (·.outputKeys) ∨
        w.Returns (transactions.flatMap (·.inputKeys)) c) := by
  rw [getElem?_outputs_applied backed, new] at recorded
  have mem := mem_of_lookup recorded
  simp only [List.mem_append] at mem
  rcases mem with (mem | mem) | mem
  · simp only [changesOf, List.mem_flatMap, order.mem_arrange] at mem
    obtain ⟨x, resolved, mem⟩ := mem
    obtain ⟨pending, tracked, shared⟩ := mem_resolvedBy.mp resolved
    rw [tracked] at mem
    simp only [changeEntries, List.mem_map, Option.mem_toList, Prod.mk.injEq] at mem
    obtain ⟨change, hchange, rfl, rfl⟩ := mem
    exact ⟨rfl, rfl, .inr ⟨x, pending, change, tracked, hchange, rfl, shared⟩⟩
  · simp only [receiveEntries, List.mem_map, Prod.mk.injEq] at mem
    obtain ⟨candidate, hcandidate, rfl, rfl⟩ := mem
    exact ⟨rfl, rfl, .inl (received candidate hcandidate)⟩
  · obtain ⟨created, value, blinding, houtput⟩ := mem_scanEntries mem
    dsimp only at houtput created
    subst houtput
    exact ⟨rfl, rfl, .inl created⟩

/-- A block keeps a wallet sound. -/
theorem Sound.applied {w : Wallet} (sound : w.Sound)
    (received : ∀ candidate ∈ receives, candidate.commitment ∈ transactions.flatMap (·.outputKeys)) :
    (applied order transactions height hash receives w).Sound := by
  have pendings : ∀ (x : Hash256) (pending : PendingTx),
      (Wallet.applied order transactions height hash receives w).pendingTxs[x]? = some pending →
      w.pendingTxs[x]? = some pending := by
    intro x pending tracked
    rw [getElem?_pendingTxs_applied] at tracked
    split at tracked
    · cases tracked
    · exact tracked
  refine ⟨?_, fun x p tracked => sound.named x p (pendings x p tracked), ?_, ?_⟩
  · intro c output recorded
    cases before : w.outputs[c]? with
    | some old =>
      obtain ⟨output', houtput', -, -, hcommitment, -⟩ := exists_of_applied order transactions
        height hash receives sound.backed before
      rw [recorded] at houtput'
      cases houtput'
      rw [hcommitment, sound.keyed c old before]
    | none => exact (of_applied_new sound.backed before received recorded).1
  · intro x p tracked c mem
    obtain ⟨old, before⟩ :=
      Option.ne_none_iff_exists'.mp (sound.backed x p (pendings x p tracked) c mem)
    obtain ⟨output', houtput', -⟩ := exists_of_applied order transactions height hash receives
      sound.backed before
    rw [houtput']
    exact Option.some_ne_none _
  · intro x p tracked
    rw [(frame_eq_iff.mp (frame_applied w)).2.1]
    exact sound.decodes x p (pendings x p tracked)

end Block

end Wallet

variable {w w' : Wallet} {chain : List Link} {block : Block} {d d' : Drive}
  {outcome : Except WalletError Unit}

/-! ## Agreement -/

/-- A block of the chain consumed the output. -/
def Consumed (chain : List Link) (c : Octets 33) : Prop := SpentIn (chain.map Link.utxoEffect) c

/-- The chain has no block at the height. -/
def NotYetApplied (chain : List Link) (height : Nat) : Prop :=
  ∀ link ∈ chain, link.header.height.toNat ≠ height

/-- **The wallet agrees with the chain.** -/
structure Agrees (w : Wallet) (chain : List Link) : Prop where
  spent : ∀ (c : Octets 33) output, w.outputs[c]? = some output →
    Consumed chain c → output.spent = true
  unspent : ∀ (c : Octets 33) output, w.outputs[c]? = some output →
    output.spent = false → (output.isCoinbase = true ∧ NotYetApplied chain output.blockHeight) ∨
      unspentAfter chain c ≠ none

section

omit [WalletBackend]

/-- Agreement does not depend on reservations. -/
theorem Agrees.of_alike (agrees : Agrees w chain)
    (alike : Alike w.outputs w'.outputs) : Agrees w' chain := by
  constructor
  · intro c output recorded consumed
    obtain ⟨output', houtput', same⟩ := alike.exists recorded
    obtain ⟨-, hspent, -, -⟩ := of_unreserved same
    exact hspent ▸ agrees.spent c output' houtput' consumed
  · intro c output recorded unspent
    obtain ⟨output', houtput', same⟩ := alike.exists recorded
    obtain ⟨-, hspent, hheight, hcoinbase⟩ := of_unreserved same
    rw [← hheight, ← hcoinbase]
    exact agrees.unspent c output' houtput' (hspent.trans unspent)

theorem consumed_concat {link : Link} :
    Consumed (chain ++ [link]) c ↔ Consumed chain c ∨ c ∈ link.utxoEffect.spends := by
  simp [Consumed, SpentIn, or_and_right, exists_or]

theorem unspentAfter_concat (chain : List Link) (link : Link) :
    unspentAfter (chain ++ [link]) = link.utxoEffect.apply (unspentAfter chain) := by
  rw [unspentAfter, List.map_append, run_append]
  rfl

end

/-- **What a block has to be for the wallet to take account of it.** -/
structure Accounts (w : Wallet) (chain : List Link) (block : Block) : Prop where
  spends : ∀ (c : Octets 33) output, w.outputs[c]? = some output →
    output.spent = false → c ∈ block.inputKeys → w.Spends c
  returns : ∀ c : Octets 33, w.outputs[c]? = none → w.Returns block.inputKeys c →
    c ∈ block.outputKeys
  coinbase : ∀ (c : Octets 33) output, w.outputs[c]? = some output →
    output.spent = false → output.isCoinbase = true →
      output.blockHeight = block.header.height.toNat → c ∈ block.outputKeys
  fresh : ∀ c ∈ block.outputKeys, ¬ Consumed chain c

/-- **A block keeps the agreement** if the wallet can take account of it. -/
theorem Agrees.applied {order : IterOrder Hash256}
    {hash : Option Hash256} {receives : List PendingReceiveCandidate} (agrees : Agrees w chain)
    (sound : w.Sound) (accounts : Accounts w chain block)
    (wf : (Link.block block).utxoEffect.WellFormed)
    (received : ∀ candidate ∈ receives,
      candidate.commitment ∈ block.transactions.flatMap (·.outputKeys)) :
    Agrees (w.applied order block.transactions block.header.height.toNat hash receives)
      (chain ++ [.block block]) := by
  have created : (Link.block block).utxoEffect.created = block.outputKeys :=
    Link.map_fst_outputEntries block
  -- what the block brings is one of its outputs
  have brought : ∀ (c : Octets 33) (output : OwnedOutput), w.outputs[c]? = none →
      (w.applied order block.transactions block.header.height.toNat hash receives).outputs[c]? =
        some output → c ∈ block.outputKeys := by
    intro c output new recorded
    obtain ⟨-, -, found | returned⟩ := Wallet.of_applied_new sound.backed new received recorded
    · exact List.mem_cons_of_mem _ found
    · exact accounts.returns c new returned
  have appears : ∀ c ∈ block.outputKeys,
      (Link.block block).utxoEffect.apply (unspentAfter chain) c ≠ none := by
    intro c mem
    rw [Effect.apply_of_created wf (created.symm ▸ mem)]
    exact fun h => Effect.lookup_creates_eq_none.mp h (created.symm ▸ mem)
  constructor
  · intro c output recorded consumed
    cases before : w.outputs[c]? with
    | some old =>
      obtain ⟨output', houtput', -, -, -, hspent⟩ := Wallet.exists_of_applied order
        block.transactions block.header.height.toNat hash receives sound.backed before
      rw [recorded] at houtput'
      cases houtput'
      rw [hspent]
      rcases consumed_concat.mp consumed with earlier | now
      · exact .inl (agrees.spent c old before earlier)
      · by_cases spent : old.spent = true
        · exact .inl spent
        · exact .inr ⟨now, accounts.spends c old before (by simpa using spent) now⟩
    | none =>
      have mem := brought c output before recorded
      rcases consumed_concat.mp consumed with earlier | now
      · exact absurd earlier (accounts.fresh c mem)
      · exact absurd (created ▸ mem) (wf.disjoint c now)
  · intro c output recorded unspent
    rw [unspentAfter_concat]
    cases before : w.outputs[c]? with
    | some old =>
      obtain ⟨output', houtput', hcoinbase, hheight, -, hspent⟩ := Wallet.exists_of_applied order
        block.transactions block.header.height.toNat hash receives sound.backed before
      rw [recorded] at houtput'
      cases houtput'
      have still : ¬ (old.spent = true ∨ (c ∈ block.inputKeys ∧ w.Spends c)) :=
        fun h => by simp [hspent.mpr h] at unspent
      have unspentBefore : old.spent = false := by
        simpa using fun h => still (.inl h)
      have apart : c ∉ (Link.block block).utxoEffect.spends := fun mem =>
        still (.inr ⟨mem, accounts.spends c old before unspentBefore mem⟩)
      rw [hcoinbase, hheight]
      by_cases mem : c ∈ block.outputKeys
      · exact .inr (appears c mem)
      · rcases agrees.unspent c old before unspentBefore with ⟨isCoinbase, pending⟩ | present
        · refine .inl ⟨isCoinbase, fun link hlink => ?_⟩
          rcases mem_snoc.mp hlink with hlink | rfl
          · exact pending link hlink
          · exact fun h => mem (accounts.coinbase c old before unspentBefore isCoinbase h.symm)
        · right
          rw [Effect.apply_of_untouched apart (created.symm ▸ mem)]
          exact present
    | none => exact .inr (appears c (brought c output before recorded))

/-! ## Runs -/

/-- The wallet, its directory and the blocks applied so far. -/
structure World where
  wallet : Wallet
  drive : Drive
  chain : List Link

/-- The calls between blocks. -/
inductive Call where
  | buildSpend (order : IterOrder OwnedOutput) (draws : Draws) (recipientBlinding : Octets 32)
      (amount fee : UInt64) (currentHeight : Nat)
  | reserveBuiltSpend (built : BuiltSpend)
  | markSubmitted (txHash : Hash256)
  | markFailed (txHash : Hash256) (reason : String)
  | cancelTx (txHash : Hash256)
  | buildCoinbase (height : Nat) (totalTxFees : UInt64)

/-- What a call does. -/
def Call.act : Call → WalletAct Unit
  | .buildSpend order draws recipientBlinding amount fee currentHeight => do
    let _ ← Wallet.buildSpend order draws recipientBlinding amount fee currentHeight
    pure ()
  | .reserveBuiltSpend built => Wallet.reserveBuiltSpend built
  | .markSubmitted txHash => Wallet.markSubmitted txHash
  | .markFailed txHash reason => Wallet.markFailed txHash reason
  | .cancelTx txHash => Wallet.cancelTx txHash
  | .buildCoinbase height totalTxFees => do
    let _ ← Wallet.buildCoinbase height totalTxFees
    pure ()

/-- What happens to a wallet. -/
inductive Event where
  | call (call : Call)
  | block (order : IterOrder Hash256) (block : Block) (hash : Option Hash256)

/-- **One event**: a call with any outcome, or a block that fits the chain. -/
inductive Step : World → Event → World → Prop
  | call {w w' : Wallet} {d d' : Drive} {chain : List Link} (call : Call)
      {outcome : Except WalletError Unit} (run : Runs call.act w d outcome w' d') :
      Step ⟨w, d, chain⟩ (.call call) ⟨w', d', chain⟩
  | block {w w' : Wallet} {d d' : Drive} {chain : List Link} (order : IterOrder Hash256)
      (block : Block) (hash : Option Hash256) (wf : (Link.block block).utxoEffect.WellFormed)
      (fits : (Link.block block).utxoEffect.Fits (unspentAfter chain))
      (run : Runs (Wallet.applyCanonicalBlockWithHash order block.transactions
        block.header.height.toNat hash) w d (.ok ()) w' d') :
      Step ⟨w, d, chain⟩ (.block order block hash) ⟨w', d', chain ++ [.block block]⟩

/-- **What an event has to heed**: a coinbase is recorded for a block to come, and the wallet can take
account of a block. -/
def Heeds (s : World) : Event → Prop
  | .call (.buildCoinbase height _) => NotYetApplied s.chain height ∧
      ∀ password blinding value, s.wallet.session = some password →
        s.wallet.coinbaseBlindingForHeight height password = .ok blinding →
        ¬ Consumed s.chain (commitBytes value blinding)
  | .call _ => True
  | .block _ block _ => Accounts s.wallet s.chain block

/-- A wallet that is sound and agrees with its chain. -/
structure World.Good (s : World) : Prop where
  sound : s.wallet.Sound
  agrees : Agrees s.wallet s.chain

omit [Primitives] [WalletBackend] in
/-- A discarded result does not matter. -/
theorem exists_runs_of_discard {α : Type} {x : WalletAct α}
    (run : Runs (do let _ ← x; pure ()) w d outcome w' d') :
    ∃ outcome', Runs x w d outcome' w' d' := by
  obtain ⟨result, w₁, d₁, first⟩ := Act.exists_runs Drive.exec x w d
  cases result with
  | error e =>
    obtain ⟨-, rfl, rfl⟩ := run.unique (Act.Runs.bind_error first)
    exact ⟨_, first⟩
  | ok a =>
    obtain ⟨-, rfl, rfl⟩ := run.unique (first.bind (Act.runs_pure () w₁ d₁))
    exact ⟨_, first⟩

/-- Recording the coinbase of a block to come. -/
theorem World.Good.addCoinbase {value : UInt64}
    {blinding : Octets 32} {height : Nat} (good : World.Good ⟨w, d, chain⟩)
    (later : NotYetApplied chain height) (unspent : ¬ Consumed chain (commitBytes value blinding)) :
    World.Good ⟨w.addOutput (.new (commitBytes value blinding) value blinding height true none), d',
      chain⟩ := by
  obtain ⟨sound, agrees⟩ := good
  have added : ∀ c : Octets 33, (w.addOutput (.new (commitBytes value blinding) value blinding height
      true none)).outputs[c]? = if commitBytes value blinding = c then
        some (.new (commitBytes value blinding) value blinding height true none)
      else w.outputs[c]? := fun c => getElem?_insert _ _ _ _
  refine ⟨⟨?_, sound.named, ?_, sound.decodes⟩, ⟨?_, ?_⟩⟩
  · intro c output recorded
    rw [added] at recorded
    split at recorded
    · rename_i same
      cases recorded
      exact same
    · exact sound.keyed c output recorded
  · intro x p tracked c mem
    rw [added]
    split
    · exact Option.some_ne_none _
    · exact sound.backed x p tracked c mem
  · intro c output recorded consumed
    rw [added] at recorded
    split at recorded
    · rename_i same
      exact absurd consumed (same ▸ unspent)
    · exact agrees.spent c output recorded consumed
  · intro c output recorded hspent
    rw [added] at recorded
    split at recorded
    · cases recorded
      exact .inl ⟨rfl, later⟩
    · exact agrees.unspent c output recorded hspent

/-- A call keeps the agreement. -/
theorem World.Good.call {call : Call} (good : World.Good ⟨w, d, chain⟩)
    (heeds : Heeds ⟨w, d, chain⟩ (.call call)) (run : Runs call.act w d outcome w' d') :
    World.Good ⟨w', d', chain⟩ := by
  have of_kept : Wallet.Kept w w' → World.Good ⟨w', d', chain⟩ :=
    fun kept => ⟨kept.sound, good.agrees.of_alike kept.alike⟩
  cases call with
  | buildSpend =>
    obtain ⟨_, run⟩ := exists_runs_of_discard run
    exact of_kept (Wallet.kept_buildSpend good.sound run)
  | reserveBuiltSpend => exact of_kept (Wallet.kept_reserveBuiltSpend good.sound run)
  | markSubmitted | markFailed => exact of_kept (Wallet.kept_journal good.sound run)
  | cancelTx => exact of_kept (Wallet.kept_cancelTx good.sound run)
  | buildCoinbase height totalTxFees =>
    obtain ⟨_, run⟩ := exists_runs_of_discard run
    obtain rfl | ⟨password, value, blinding, unlocked, derived, rfl⟩ :=
      Wallet.eq_of_buildCoinbase run
    · exact ⟨good.sound, good.agrees⟩
    · exact good.addCoinbase heeds.1 (heeds.2 password blinding value unlocked derived)

variable {s : World}

/-- **One event keeps the agreement.** -/
theorem Step.good {s' : World} {event : Event} (step : Step s event s') (heeds : Heeds s event)
    (good : s.Good) : s'.Good := by
  cases step with
  | call call run => exact good.call heeds run
  | @block w w' d d' chain order block hash wf fits run =>
    obtain ⟨sound, agrees⟩ := good
    have decodes : ∀ (x : Hash256) (pending : PendingTx),
        (w.resolveAll order block.transactions block.header.height.toNat hash).pendingTxs[x]? =
          some pending → ∃ candidate, Wallet.receiveCandidate
            (w.resolveAll order block.transactions block.header.height.toNat hash).chainId
            (x, pending) = .ok candidate := by
      intro x pending tracked
      rw [(Wallet.frame_eq_iff.mp Wallet.frame_resolveAll).2.1]
      rw [Wallet.resolveAll, Wallet.getElem?_pendingTxs_foldl_resolve] at tracked
      split at tracked
      · cases tracked
      · exact sound.decodes x pending tracked
    obtain ⟨receives, decoded, mem_receives⟩ := Wallet.exists_confirmedReceives decodes
      (block.transactions.flatMap (·.outputKeys))
    have received : ∀ candidate ∈ receives,
        candidate.commitment ∈ block.transactions.flatMap (·.outputKeys) :=
      fun candidate mem => ((mem_receives candidate).mp mem).2
    obtain ⟨outcome, d₁, saved⟩ := Wallet.exists_runs_save
      (w.applied order block.transactions block.header.height.toNat hash receives)
      (w.journalled order block.transactions block.header.height.toNat hash receives d)
    obtain ⟨-, rfl, -⟩ := run.unique
      (Wallet.runs_applyCanonicalBlock_of_save sound.backed decoded saved)
    exact ⟨sound.applied received, agrees.applied sound heeds wf received⟩

/-- **The wallet agrees with the chain** in every state of every run whose events heed the condition:
from any sound wallet that agrees with the blocks applied so far. -/
theorem agrees_of_heeding {start s : World} (sound : start.wallet.Sound)
    (agrees : Agrees start.wallet start.chain)
    (run : Relation.ReflTransGen (fun s s' => ∃ event, Heeds s event ∧ Step s event s') start s) :
    Agrees s.wallet s.chain := by
  have good : s.Good := by
    induction run with
    | refl => exact ⟨sound, agrees⟩
    | tail _ last ih =>
      obtain ⟨event, heeds, step⟩ := last
      exact step.good heeds ih
  exact good.agrees

/-! ## Computed runs -/

/-- The world after a call. -/
def World.after (s : World) (call : Call) : World :=
  ⟨((call.act s.wallet).run Drive.exec s.drive).1.2, ((call.act s.wallet).run Drive.exec s.drive).2,
    s.chain⟩

theorem World.step_after (s : World) (call : Call) : Step s (.call call) (s.after call) :=
  Step.call call rfl

theorem World.step_call {s : World} {call : Call} {w : Wallet} {d : Drive}
    (ends : (s.after call).wallet = w ∧ (s.after call).drive = d) :
    Step s (.call call) ⟨w, d, s.chain⟩ := by
  obtain ⟨rfl, rfl⟩ := ends
  exact s.step_after call

/-- The world after a block. -/
def World.extend (s : World) (block : Block) : World :=
  let applied := (Wallet.applyCanonicalBlockWithHash .asListed block.transactions
    block.header.height.toNat none s.wallet).run Drive.exec s.drive
  ⟨applied.1.2, applied.2, s.chain ++ [.block block]⟩

/-- Whether applying a block to the wallet succeeds. -/
def World.accepts (s : World) (block : Block) : Bool :=
  ((Wallet.applyCanonicalBlockWithHash .asListed block.transactions block.header.height.toNat none
    s.wallet).run Drive.exec s.drive).1.1.isOk

/-- Whether a block fits a chain. -/
def fitsChain (chain : List Link) (block : Block) : Bool :=
  decide block.inputKeys.Nodup && decide block.outputKeys.Nodup &&
    block.inputKeys.all (fun c => !block.outputKeys.contains c && (unspentAfter chain c).isSome) &&
    block.outputKeys.all fun c => (unspentAfter chain c).isNone

omit [WalletBackend] in
theorem of_fitsChain (fits : fitsChain chain block = true) :
    (Link.block block).utxoEffect.WellFormed ∧
      (Link.block block).utxoEffect.Fits (unspentAfter chain) := by
  have created : (Link.block block).utxoEffect.created = block.outputKeys :=
    Link.map_fst_outputEntries block
  simp only [fitsChain, Bool.and_eq_true, decide_eq_true_eq, List.all_eq_true, Bool.not_eq_true',
    List.contains_eq_mem, decide_eq_false_iff_not, Option.isSome_iff_ne_none,
    Option.isNone_iff_eq_none] at fits
  obtain ⟨⟨⟨inputs, outputs⟩, spends⟩, creates⟩ := fits
  refine ⟨⟨inputs, created ▸ outputs, fun c mem => created ▸ (spends c mem).1⟩,
    ⟨fun c mem => (spends c mem).2, ?_⟩⟩
  rw [created]
  exact creates

theorem World.step_extend (fits : fitsChain s.chain block = true)
    (accepted : s.accepts block = true) : Step s (.block .asListed block none) (s.extend block) := by
  obtain ⟨wf, fits⟩ := of_fitsChain fits
  exact Step.block .asListed block none wf fits (Wallet.runs_of_isOk accepted)

end Calls

/-! ## A cancelled spend that is mined -/

section Example

open Transparent

attribute [local instance] primitives

/-- A backend that builds transactions without fee. -/
@[reducible] def sampleBackend : WalletBackend where
  coinbaseBlinding _ height := .ok (BitVec.ofNat _ (height * 2 ^ 64 + 6))
  spendOutputBlinding _ _ index := .ok (BitVec.ofNat _ (index.toNat + 1))
  buildTransaction _ inputs outputs _ _ := .ok (transfer
    (inputs.map fun input => (input.blinding.toNat, input.value.toNat))
    (outputs.map fun output => (output.2.toNat, output.1.toNat))
    ((outputs.map (·.2.toNat)).sum - (inputs.map (·.blinding.toNat)).sum))
  slateFromBytes _ := .error "no slates"

attribute [local instance] sampleBackend

/-- The coinbase of the first block. -/
def minerCoinbase : OwnedOutput :=
  .new (pointBytes 6 reward) (UInt64.ofNat reward) (BitVec.ofNat _ 6) 0 true none

/-- A wallet that has mined the first block. -/
def minerState : WalletState where
  network := .regtest
  chainId := 0
  outputs := (∅ : OutputIndex).insert minerCoinbase.commitment minerCoinbase
  pendingTxs := ∅
  receiveRequests := []
  keychain := ⟨none, 0⟩

/-- The wallet after two blocks. -/
def minerWorld : World where
  wallet := ⟨minerState, some "password"⟩
  drive := ⟨⟨[], minerState⟩, []⟩
  chain := [.block (regtestBlock 0 5 5 []), .block (regtestBlock 1 5 5 [])]

/-- Spend the coinbase without change. -/
def payment : Call := .buildSpend .asListed ⟨1, 0⟩ (BitVec.ofNat _ 11) (UInt64.ofNat reward) 0 1

/-- The block that confirms the payment. -/
def paymentBlock : Block := regtestBlock 2 5 5 [transfer [(6, reward)] [(11, reward)] 5]

theorem minerWorld_recorded (recorded : minerWorld.wallet.outputs[c]? = some output) :
    c = minerCoinbase.commitment ∧ output = minerCoinbase :=
  eq_of_toList (by decide +kernel) recorded

theorem minerWorld_idle (x : Hash256) (pending : PendingTx) :
    minerWorld.wallet.pendingTxs[x]? ≠ some pending := by
  have empty : minerWorld.wallet.pendingTxs[x]? = none := Std.ExtTreeMap.getElem?_empty
  rw [empty]
  exact nofun

theorem minerWorld_sound : minerWorld.wallet.Sound := by
  refine ⟨?_, fun x p h => absurd h (minerWorld_idle x p),
    fun x p h => absurd h (minerWorld_idle x p), fun x p h => absurd h (minerWorld_idle x p)⟩
  intro c output recorded
  obtain ⟨rfl, rfl⟩ := minerWorld_recorded recorded
  rfl

theorem not_consumed_minerWorld (c : Octets 33) : ¬ Consumed minerWorld.chain c := by
  intro consumed
  simp [Consumed, SpentIn, minerWorld, Link.utxoEffect, regtestBlock, Slot.block,
    Block.inputKeys] at consumed

/-- The transaction of the payment. -/
def paymentTx : Transaction := transfer [(6, reward)] [(11, reward)] 5

/-- The payment as the wallet builds it. -/
def paymentSpend : BuiltSpend :=
  ⟨0, WireFormat.encode paymentTx, [minerCoinbase.commitment], none⟩

/-- The world after the payment was built. -/
def paymentWorld : World where
  wallet := Wallet.reserved paymentSpend minerWorld.wallet
  drive := (minerWorld.drive.append ⟨paymentSpend.txHash, paymentSpend.event⟩).save
    (Wallet.reserved paymentSpend minerWorld.wallet).toWalletState
  chain := minerWorld.chain

/-- The payment is cancelled, and then its block is mined. -/
def forgetfulWorld : World := (paymentWorld.after (.cancelTx 0)).extend paymentBlock

/-- The wallets of the example, computed. -/
theorem minerWorld_eq :
    unspentAfter minerWorld.chain minerCoinbase.commitment ≠ none ∧
    fitsChain minerWorld.chain paymentBlock = true ∧
    ((minerWorld.after payment).wallet = paymentWorld.wallet ∧
      (minerWorld.after payment).drive = paymentWorld.drive) ∧
    paymentWorld.wallet.outputs.toList =
      [(minerCoinbase.commitment, minerCoinbase.reservedFor 0)] ∧
    paymentWorld.wallet.pendingTxs.toList = [(0, paymentSpend.pending)] ∧
    paymentWorld.accepts paymentBlock = true ∧
    (paymentWorld.after (.cancelTx 0)).accepts paymentBlock = true ∧
    forgetfulWorld.wallet.outputs[minerCoinbase.commitment]? = some minerCoinbase ∧
    (regtestRun [regtestBlock 0 5 5 [], regtestBlock 1 5 5 [], paymentBlock]).tipHeight = 2 := by
  decide +kernel

theorem minerWorld_agrees : Agrees minerWorld.wallet minerWorld.chain := by
  constructor
  · intro c output _ consumed
    exact absurd consumed (not_consumed_minerWorld c)
  · intro c output recorded unspent
    obtain ⟨rfl, rfl⟩ := minerWorld_recorded recorded
    exact .inr minerWorld_eq.1

theorem spends_paymentBlock :
    (Link.block paymentBlock).utxoEffect.spends = [pointBytes 6 reward] := rfl

theorem minerWorld_step : Step minerWorld (.call payment) paymentWorld :=
  World.step_call minerWorld_eq.2.2.1

/-- **A cancelled spend is forgotten**: it is mined all the same, and the wallet still offers the
output it consumed. -/
theorem cancelled_spend_is_forgotten :
    ∃ (start s : World) (blocks : List Block), start.wallet.Sound ∧
      Agrees start.wallet start.chain ∧
      Relation.ReflTransGen (fun s s' => ∃ event, Step s event s') start s ∧
      s.chain = blocks.map .block ∧ (regtestRun blocks).tipHeight = 2 ∧
      ¬ Agrees s.wallet s.chain := by
  obtain ⟨-, fits, -, -, -, -, accepted, outputs, height⟩ := minerWorld_eq
  refine ⟨minerWorld, forgetfulWorld, [regtestBlock 0 5 5 [], regtestBlock 1 5 5 [], paymentBlock],
    minerWorld_sound, minerWorld_agrees, ?_, rfl, height, ?_⟩
  · exact ((Relation.ReflTransGen.single ⟨_, minerWorld_step⟩).tail
      ⟨_, paymentWorld.step_after (.cancelTx 0)⟩).tail ⟨_, World.step_extend fits accepted⟩
  · intro agrees
    have consumed : Consumed forgetfulWorld.chain minerCoinbase.commitment := by
      refine ⟨(Link.block paymentBlock).utxoEffect, ?_, ?_⟩
      · simp [forgetfulWorld, World.extend, World.after]
      · rw [spends_paymentBlock]
        exact List.mem_singleton.mpr rfl
    exact absurd (agrees.spent _ _ outputs consumed) (by decide)

theorem paymentWorld_accounts : Accounts paymentWorld.wallet paymentWorld.chain paymentBlock where
  spends c output recorded _ _ := by
    obtain ⟨rfl, -⟩ := eq_of_toList minerWorld_eq.2.2.2.1 recorded
    exact ⟨0, paymentSpend.pending, getElem?_insert _ _ _ _, List.mem_singleton.mpr rfl⟩
  returns c _ returned := by
    obtain ⟨x, pending, change, tracked, hchange, -⟩ := returned
    rw [(eq_of_toList minerWorld_eq.2.2.2.2.1 tracked).2] at hchange
    cases hchange
  coinbase c output recorded _ _ hheight := by
    rw [(eq_of_toList minerWorld_eq.2.2.2.1 recorded).2] at hheight
    exact absurd hheight (by decide)
  fresh c _ := not_consumed_minerWorld c

/-- The payment is mined while the wallet tracks it. -/
theorem agrees_after_payment : Agrees (paymentWorld.extend paymentBlock).wallet
    (paymentWorld.extend paymentBlock).chain := by
  obtain ⟨-, fits, -, -, -, accepted, -⟩ := minerWorld_eq
  exact agrees_of_heeding minerWorld_sound minerWorld_agrees
    ((Relation.ReflTransGen.single ⟨.call payment, trivial, minerWorld_step⟩).tail
      ⟨.block .asListed paymentBlock none, paymentWorld_accounts,
        World.step_extend fits accepted⟩)

end Example

end DomProtocol.DomWallet
