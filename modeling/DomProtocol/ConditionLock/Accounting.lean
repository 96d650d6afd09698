import DomProtocol.ConditionLock.Core

/-! # Accounting of the condition locks

Custody is pooled: all locks and all credits of an asset are covered by one balance. **`Pools`**
says which balances a variant keeps, and **`World.Solvent`** that every pool covers what is owed
from it.

The two variants differ in their hooks only. **`Hooks.Lawful`** is what the core needs of them:
while the guard is held they leave the storage alone, report for a push or a pull no less than what
left custody, and pay the account they were given. Then `Call.exec_spec` holds for every entry point
of either variant: it stays solvent, and the settlements (**`World.Recorded`**) and the books
(**`World.Booked`**) stay in order. -/

namespace DomProtocol.ConditionLock

open World

/-- The balances a variant keeps. -/
structure Pools (β : Type) where
  Pool : Type
  covers : Pool → Address → Bool
  custody : β → Pool → Nat

variable {β : Type}

namespace World

variable (P : Pools β) (i : P.Pool) (w : World β)

/-- What a lock owes from a pool. -/
def owed (lock : Lock) : Nat :=
  if lock.settled = false ∧ P.covers i lock.asset then lock.amount.toNat else 0

/-- What a credit owes from a pool. -/
def owedCredit (entry : CreditKey × UInt256) : Nat :=
  if P.covers i entry.1.asset then entry.2.toNat else 0

/-- What the unsettled locks and the credits owe from a pool. -/
def liabilities : Nat :=
  Table.sumOf (fun entry => owed P i entry.2) w.locks +
    Table.sumOf (owedCredit P i) w.pendingWithdrawals

/-- Every pool covers what is owed from it. -/
def Solvent : Prop := ∀ i, w.liabilities P i ≤ P.custody w.assets i

end World

/-- The part of an amount that concerns a pool. -/
def Pools.share (P : Pools β) (i : P.Pool) (asset : Address) (amount : UInt256) : Nat :=
  if P.covers i asset then amount.toNat else 0

/-! ## The books -/

/-- What an event sent from a pool to an account: a withdrawal, the amount to its target. -/
def Event.sent (P : Pools β) (i : P.Pool) (account : Address) : Event → Nat
  | .Withdrawal _ asset target amount => if target = account then P.share i asset amount else 0
  | _ => 0

/-- What an event took from the credit of an account. -/
def Event.spent (account asset : Address) : Event → Nat
  | .Withdrawal owner asset' _ amount => if owner = account ∧ asset' = asset then amount.toNat else 0
  | _ => 0

/-- Withdrawals are the events that spend a credit. -/
def Event.isWithdrawal : Event → Bool
  | .Withdrawal .. => true
  | _ => false

namespace World

variable (w : World β)

/-- The withdrawals of the event log. -/
def withdrawals : List Event := w.events.filter Event.isWithdrawal

/-- Emitting an event adds it to the withdrawals if it is one. -/
@[simp] theorem withdrawals_emit (event : Event) : (w.emit event).withdrawals =
    w.withdrawals ++ if event.isWithdrawal then [event] else [] := by
  rw [withdrawals, emit, List.filter_append, List.filter_cons, List.filter_nil]
  rfl

section

variable (P : Pools β) (i : P.Pool) (account : Address)

/-- What an account was paid from a pool. -/
def received : Nat :=
  (w.payments.map fun p => if p.target = account then P.share i p.asset p.amount else 0).sum

/-- What the settlements in favour of an account delivered from a pool. -/
def delivered : Nat :=
  (w.settlements.map fun s => if s.target = account then P.share i s.asset s.delivered else 0).sum

/-- What withdrawals sent to an account from a pool. -/
def withdrawn : Nat := (w.withdrawals.map (Event.sent P i account)).sum

end

/-- What the settlements in favour of an account credited to it. -/
def credited (account asset : Address) : Nat :=
  (w.settlements.map fun s =>
    if s.target = account ∧ s.asset = asset then s.credited.toNat else 0).sum

/-- What an account withdrew from its credit. -/
def spent (account asset : Address) : Nat := (w.withdrawals.map (Event.spent account asset)).sum

/-- **The books are in order.** An account was paid what settlements delivered to it and what
withdrawals sent to it, and nothing else. Its credit, with what it has withdrawn from it, is at most
what settlements credited to it. -/
structure Booked (P : Pools β) : Prop where
  received : ∀ i account, w.received P i account = w.delivered P i account + w.withdrawn P i account
  credited : ∀ account asset,
    (w.credit account asset).toNat + w.spent account asset ≤ w.credited account asset

/-- A transfer of an amount to an account, and no other. -/
def Sent (P : Pools β) (target asset : Address) (amount : UInt256) (w w' : World β) : Prop :=
  ∀ i account, w'.received P i account =
    w.received P i account + if target = account then P.share i asset amount else 0

end World

/-- Two worlds with the same storage. -/
def World.SameStorage (w w' : World β) : Prop :=
  w' = { w with assets := w'.assets, payments := w'.payments }

/-- Two worlds that differ in their assets only. -/
def World.SameBooks (w w' : World β) : Prop := w' = { w with assets := w'.assets }

/-- **What the core needs of the hooks.** `incoming` is the value that came with the message, which the
custody holds already when the call starts. -/
structure Hooks.Lawful (P : Pools β) (H : Hooks β) (msg : Msg) (incoming : P.Pool → Nat) :
    Prop where
  take : ∀ {asset amount w w'}, H.takeCustody msg asset amount w = .ok w' → w.entered = true →
    w.SameBooks w' ∧ ∀ i, P.custody w.assets i + P.share i asset amount ≤
      P.custody w'.assets i + incoming i
  push : ∀ {target asset amount w delivered w'},
    H.tryPushPayout target asset amount w = (delivered, w') → w.entered = true →
    w.SameStorage w' ∧ delivered ≤ amount ∧ w.Sent P target asset delivered w' ∧
      ∀ i, P.custody w.assets i ≤ P.custody w'.assets i + P.share i asset delivered
  pull : ∀ {target asset amount w w'}, H.pullTransfer target asset amount w = (amount, w') →
    w.entered = true →
    w.SameStorage w' ∧ w.Sent P target asset amount w' ∧
      ∀ i, P.custody w.assets i ≤ P.custody w'.assets i + P.share i asset amount

/-! ## Settlements in order -/

section Recorded

variable [Evm]

variable {w w' : World β} {id : Bytes32}

/-- Who may receive a lock's amount, and when: the beneficiary for the secret of the adaptor address
before the deadline, the funder from the deadline on. -/
def Lock.Entitles (lock : Lock) (target : Address) (timestamp : Nat) : Option UInt256 → Prop
  | some t => target = lock.beneficiary ∧ 0 < t.toNat ∧ t.toNat < secp256k1N ∧
      Evm.scalarAddress t.toNat = lock.adaptorAddress ∧ timestamp < lock.deadline.toNat
  | none => target = lock.funder ∧ lock.deadline.toNat ≤ timestamp

/-- A settlement released no more than its lock's amount, to whom the lock entitles. -/
def Settlement.Rightful (s : Settlement) (lock : Lock) : Prop :=
  s.asset = lock.asset ∧ s.delivered.toNat + s.credited.toNat ≤ lock.amount.toNat ∧
    lock.Entitles s.target s.timestamp s.secret

/-- **The settlements are in order**: one for each settled lock, and each rightful. -/
structure World.Recorded (w : World β) : Prop where
  known : ∀ (id : Bytes32) lock, w.locks[id]? = some lock → lock.funder ≠ 0
  once : (w.settlements.map Settlement.lockId).Nodup
  terminal : ∀ (id : Bytes32) lock, w.locks[id]? = some lock → id ∈ w.settlements.map Settlement.lockId →
    lock.settled = true
  rightful : ∀ s ∈ w.settlements, ∃ lock, w.locks[s.lockId]? = some lock ∧ s.Rightful lock

/-- The order of the settlements depends on the locks and the settlements only. -/
theorem World.Recorded.congr (recorded : w.Recorded) (locks : w'.locks = w.locks)
    (settlements : w'.settlements = w.settlements) : w'.Recorded := by
  obtain ⟨known, once, terminal, rightful⟩ := recorded
  constructor
  · rwa [locks]
  · rwa [settlements]
  · rwa [locks, settlements]
  · rwa [locks, settlements]

omit [Evm] in
/-- A lock that is known has an entry. -/
theorem lockOf_of_funder (known : (w.lockOf id).funder ≠ 0) :
    w.locks[id]? = some (w.lockOf id) := by
  unfold lockOf at *
  cases found : w.locks[id]? with
  | none =>
    rw [found] at known
    exact (known rfl).elim
  | some lock => rfl

/-- Opening a lock under a new id. -/
theorem World.Recorded.opened (recorded : w.Recorded)
    (free : w.locks[id]? = none) (lock : Lock) (funded : lock.funder ≠ 0) :
    Recorded { w with locks := w.locks.insert id lock } where
  known id' lock' found := by
    rw [Table.getElem?_insert] at found
    split at found
    · cases found
      exact funded
    · exact recorded.known id' lock' found
  once := recorded.once
  terminal id' lock' found settled := by
    rw [Table.getElem?_insert] at found
    split at found
    · -- a settled lock would have an entry already
      rename_i same
      subst same
      obtain ⟨s, mem, same⟩ := List.mem_map.mp settled
      obtain ⟨_, held, -⟩ := recorded.rightful s mem
      rw [same, free] at held
      cases held
    · exact recorded.terminal id' lock' found settled
  rightful s mem := by
    obtain ⟨lock', found, rightful⟩ := recorded.rightful s mem
    have other : id ≠ s.lockId := by
      rintro rfl
      rw [free] at found
      cases found
    exact ⟨lock', by rw [Table.getElem?_insert, if_neg other, found], rightful⟩

/-- Settling an unsettled lock. -/
theorem World.Recorded.settled (recorded : w.Recorded) {lock : Lock} {s : Settlement}
    (found : w.locks[s.lockId]? = some lock) (unsettled : lock.settled = false)
    (rightful : s.Rightful lock)
    (locks : w'.locks = w.locks.insert s.lockId { lock with settled := true })
    (settlements : w'.settlements = w.settlements ++ [s]) : w'.Recorded where
  known id lock' found' := by
    rw [locks, Table.getElem?_insert] at found'
    split at found'
    · cases found'
      exact recorded.known _ lock found
    · exact recorded.known id lock' found'
  once := by
    rw [settlements, List.map_append]
    refine List.nodup_append_comm.mp (List.nodup_cons.mpr ⟨fun mem => ?_, recorded.once⟩)
    rw [recorded.terminal _ lock found mem] at unsettled
    cases unsettled
  terminal id lock' found' mem := by
    rw [locks, Table.getElem?_insert] at found'
    split at found'
    · cases found'
      rfl
    · rename_i other
      rw [settlements, List.map_append, List.mem_append] at mem
      rcases mem with mem | mem
      · exact recorded.terminal id lock' found' mem
      · rw [List.map_singleton, List.mem_singleton] at mem
        exact (other mem.symm).elim
  rightful s' mem := by
    rw [settlements, mem_snoc] at mem
    rw [locks]
    rcases mem with mem | rfl
    · obtain ⟨lock', held, rightful'⟩ := recorded.rightful s' mem
      by_cases same : s.lockId = s'.lockId
      · rw [← same, found] at held
        cases held
        exact ⟨{ lock with settled := true }, by rw [same, Table.getElem?_insert, if_pos rfl],
          rightful'⟩
      · exact ⟨lock', by rw [Table.getElem?_insert, if_neg same, held], rightful'⟩
    · exact ⟨{ lock with settled := true }, by rw [Table.getElem?_insert, if_pos rfl], rightful⟩

end Recorded

/-! ## What an entry point owes and holds -/

section Accounts

variable {P : Pools β} {i : P.Pool}

variable {w w' : World β} {id : Bytes32} {lock : Lock} {a b c : UInt256} {gasleft : Nat}
  {target asset : Address} {amount delivered : UInt256} {lockId : Bytes32} {call : Call}

theorem liabilities_congr (locks : w'.locks = w.locks)
    (credits : w'.pendingWithdrawals = w.pendingWithdrawals) :
    w'.liabilities P i = w.liabilities P i := by
  rw [liabilities, liabilities, locks, credits]

/-- A new lock owes its amount. -/
theorem liabilities_opened (w : World β) (free : w.locks[id]? = none) (lock : Lock)
    (unsettled : lock.settled = false) :
    liabilities P i { w with locks := w.locks.insert id lock } =
      w.liabilities P i + P.share i lock.asset lock.amount := by
  have added := Table.sumOf_insert (fun entry => owed P i entry.2) w.locks id lock
  have owed : owed P i lock = P.share i lock.asset lock.amount := by
    simp [owed, Pools.share, unsettled]
  simp only [free, Option.elim_none, owed] at added
  simp only [liabilities]
  omega

/-- A settled lock owes nothing any more. -/
theorem liabilities_settled (w : World β)
    (found : w.locks[id]? = some lock) (unsettled : lock.settled = false) :
    liabilities P i { w with locks := w.locks.insert id { lock with settled := true } } +
      P.share i lock.asset lock.amount = w.liabilities P i := by
  have added := Table.sumOf_insert (fun entry => owed P i entry.2) w.locks id
    { lock with settled := true }
  have before : owed P i lock = P.share i lock.asset lock.amount := by
    simp [owed, Pools.share, unsettled]
  have after : owed P i { lock with settled := true } = 0 := by simp [owed]
  simp only [found, Option.elim_some, before, after] at added
  simp only [liabilities]
  omega

/-- Setting a credit replaces what it owed. -/
theorem liabilities_setCredit (w : World β) (account asset : Address) (amount : UInt256) :
    (w.setCredit account asset amount).liabilities P i + P.share i asset (w.credit account asset) =
      w.liabilities P i + P.share i asset amount := by
  have added := Table.sumOf_insert (owedCredit P i) w.pendingWithdrawals
    ⟨account, asset⟩ amount
  have before : (w.pendingWithdrawals[CreditKey.mk account asset]?.elim 0 fun old =>
      owedCredit P i (⟨account, asset⟩, old)) = P.share i asset (w.credit account asset) := by
    rw [credit]
    cases w.pendingWithdrawals[CreditKey.mk account asset]? with
    | none => simp [Pools.share]
    | some old => rfl
  rw [before] at added
  have after : owedCredit P i (⟨account, asset⟩, amount) = P.share i asset amount := rfl
  rw [after] at added
  simp only [liabilities, setCredit]
  omega

theorem toNat_addSaturating_le (a b : UInt256) : (addSaturating a b).toNat ≤ a.toNat + b.toNat := by
  unfold addSaturating
  split
  · rename_i wrapped
    have := a.isLt
    have := b.isLt
    rw [BitVec.lt_def, BitVec.toNat_add] at wrapped
    rw [BitVec.toNat_allOnes]
    omega
  · rw [BitVec.toNat_add]
    exact Nat.mod_le _ _

theorem share_le (P : Pools β) (i : P.Pool) (asset : Address) (le : a.toNat ≤ b.toNat + c.toNat) :
    P.share i asset a ≤ P.share i asset b + P.share i asset c := by
  unfold Pools.share
  split
  · exact le
  · exact Nat.zero_le _

theorem share_add (P : Pools β) (i : P.Pool) (asset : Address) (eq : a.toNat + b.toNat = c.toNat) :
    P.share i asset a + P.share i asset b = P.share i asset c := by
  unfold Pools.share
  split
  · exact eq
  · rfl

/-- Reading a credit back. -/
theorem credit_setCredit (w : World β) (account asset account' asset' : Address) (amount : UInt256) :
    (w.setCredit account asset amount).credit account' asset' =
      if account = account' ∧ asset = asset' then amount else w.credit account' asset' := by
  simp only [credit, setCredit, Table.getElem?_insert, CreditKey.mk.injEq]
  split
  · rfl
  · rfl

/-- Recording a transfer is a transfer. -/
theorem sent_pay (w : World β) (target asset : Address) (amount : UInt256) :
    w.Sent P target asset amount (w.pay target asset amount) := by
  intro i account
  simp [received, pay]

/-- Nothing sent, nothing received. -/
theorem sent_zero (same : w'.payments = w.payments) : w.Sent P target asset 0 w' := by
  intro i account
  simp [received, same, Pools.share]

variable {H : Hooks β} {msg : Msg} {incoming : P.Pool → Nat}

/-- What a payout leaves of the world. -/
structure PaidOut (P : Pools β) (target asset : Address) (amount delivered credited : UInt256)
    (w w' : World β) : Prop where
  locks : w'.locks = w.locks
  settlements : w'.settlements = w.settlements
  withdrawals : w'.withdrawals = w.withdrawals
  timestamp : w'.timestamp = w.timestamp
  total : delivered.toNat + credited.toNat = amount.toNat
  sent : w.Sent P target asset delivered w'
  credits : ∀ account asset', (w'.credit account asset').toNat ≤ (w.credit account asset').toNat +
    if target = account ∧ asset = asset' then credited.toNat else 0
  accounts : ∀ i, w'.liabilities P i + P.custody w.assets i ≤
    w.liabilities P i + P.custody w'.assets i + P.share i asset amount

theorem pushIfGas_spec (lawful : H.Lawful P msg incoming)
    (h : pushIfGas H gasleft target asset amount w = (delivered, w')) (entered : w.entered = true) :
    w.SameStorage w' ∧ delivered ≤ amount ∧ w.Sent P target asset delivered w' ∧
      ∀ i, P.custody w.assets i ≤ P.custody w'.assets i + P.share i asset delivered := by
  unfold pushIfGas at h
  split at h
  · exact lawful.push h entered
  · cases h
    exact ⟨rfl, BitVec.le_def.mpr (Nat.zero_le _), sent_zero rfl, fun i => Nat.le_add_right _ _⟩

/-- **A payout** delivers or credits exactly the amount, and owes no more than it keeps. -/
theorem payout_spec (lawful : H.Lawful P msg incoming) {credited : UInt256}
    (h : payout H gasleft target asset amount w = .ok ((delivered, credited), w'))
    (entered : w.entered = true) : PaidOut P target asset amount delivered credited w w' := by
  unfold payout at h
  rcases pushed : pushIfGas H gasleft target asset amount w with ⟨moved, w₁⟩
  obtain ⟨same, le, sent, custody⟩ := pushIfGas_spec lawful pushed entered
  simp only [pushed] at h
  rw [if_neg (BitVec.not_lt.mpr le)] at h
  have total : moved.toNat + (amount - moved).toNat = amount.toNat := by
    have le := BitVec.le_def.mp le
    rw [BitVec.toNat_sub_of_le le]
    omega
  split at h
  · -- everything was delivered
    cases h
    refine ⟨by rw [same], by rw [same], by rw [same]; rfl, by rw [same], total, sent, ?_, fun i => ?_⟩
    · intro account asset'
      rw [same]
      exact Nat.le_add_right _ _
    · have owes : w'.liabilities P i = w.liabilities P i :=
        liabilities_congr (by rw [same]) (by rw [same])
      have parts := share_add P i asset total
      have := custody i
      omega
  · cases h
    refine ⟨by rw [same]; rfl, by rw [same]; rfl, ?_, by rw [same]; rfl, total, sent, ?_,
      fun i => ?_⟩
    · rw [same]
      simp [withdrawals, emit, setCredit, Event.isWithdrawal]
    · intro account asset'
      have credit : w₁.credit account asset' = w.credit account asset' := by rw [same]; rfl
      rw [show ((w₁.setCredit target asset _).emit _).credit account asset' =
        (w₁.setCredit target asset _).credit account asset' from rfl, credit_setCredit, ← credit]
      split
      · rename_i own
        obtain ⟨rfl, rfl⟩ := own
        exact toNat_addSaturating_le _ _
      · exact Nat.le_add_right _ _
    · have owes : w₁.liabilities P i = w.liabilities P i :=
        liabilities_congr (by rw [same]) (by rw [same])
      have credited := liabilities_setCredit (P := P) (i := i) w₁ target asset
        (addSaturating (w₁.credit target asset) (amount - delivered))
      have saturates := share_le P i asset
        (toNat_addSaturating_le (w₁.credit target asset) (amount - delivered))
      have parts := share_add P i asset total
      have := custody i
      simp only [emit]
      change liabilities P i (w₁.setCredit target asset _) + _ ≤ _
      simp only [setCredit] at credited ⊢
      omega

/-- The books depend on the payments, the settlements, the withdrawals and the credits only. -/
theorem World.Booked.congr (booked : w.Booked P) (payments : w'.payments = w.payments)
    (settlements : w'.settlements = w.settlements) (withdrawals : w'.withdrawals = w.withdrawals)
    (credits : w'.pendingWithdrawals = w.pendingWithdrawals) : w'.Booked P := by
  obtain ⟨received, credited⟩ := booked
  constructor
  · simpa only [World.received, delivered, withdrawn, payments, settlements, withdrawals] using received
  · simpa only [credit, spent, World.credited, credits, settlements, withdrawals] using credited

/-- **A settlement that is recorded as it was paid** keeps the books in order. -/
theorem World.Booked.settled {credited : UInt256} (booked : w.Booked P)
    (paid : PaidOut P target asset amount delivered credited w w') (secret : Option UInt256)
    (timestamp : Nat) :
    Booked { w' with settlements := w'.settlements ++
      [⟨lockId, target, asset, secret, timestamp, delivered, credited⟩] } P where
  received i account := by
    have sent := paid.sent i account
    have before := booked.received i account
    have released : World.delivered { w' with settlements := w'.settlements ++
        [⟨lockId, target, asset, secret, timestamp, delivered, credited⟩] } P i account =
        w.delivered P i account + if target = account then P.share i asset delivered else 0 := by
      simp [World.delivered, paid.settlements]
    have same : w'.withdrawn P i account = w.withdrawn P i account := by
      rw [withdrawn, withdrawn, paid.withdrawals]
    change w'.received P i account = _ + w'.withdrawn P i account
    omega
  credited account asset' := by
    have credits := paid.credits account asset'
    have before := booked.credited account asset'
    have released : World.credited { w' with settlements := w'.settlements ++
        [⟨lockId, target, asset, secret, timestamp, delivered, credited⟩] } account asset' =
        w.credited account asset' +
          if target = account ∧ asset = asset' then credited.toNat else 0 := by
      simp [World.credited, paid.settlements]
    have same : w'.spent account asset' = w.spent account asset' := by
      rw [spent, spent, paid.withdrawals]
    change (w'.credit account asset').toNat + w'.spent account asset' ≤ _
    omega

/-- **A withdrawal that is emitted as it was paid** keeps the books in order. -/
theorem World.Booked.pulled {owner : Address} (booked : w.Booked P)
    (within : amount ≤ w.credit owner asset)
    (same : (w.setCredit owner asset (w.credit owner asset - amount)).SameStorage w')
    (sent : (w.setCredit owner asset (w.credit owner asset - amount)).Sent P target asset amount w') :
    (w'.emit (.Withdrawal owner asset target amount)).Booked P where
  received i account := by
    have sent := sent i account
    have before := booked.received i account
    have pulled : (w'.emit (.Withdrawal owner asset target amount)).withdrawn P i account =
        w.withdrawn P i account + if target = account then P.share i asset amount else 0 := by
      rw [withdrawn, withdrawals_emit, same]
      simp [Event.isWithdrawal, Event.sent, withdrawn, withdrawals, setCredit]
    have kept : w'.delivered P i account = w.delivered P i account := by
      rw [same]
      rfl
    change w'.received P i account = w'.delivered P i account + _
    change _ = w.received P i account + _ at sent
    omega
  credited account asset' := by
    have before := booked.credited account asset'
    have pulled : (w'.emit (.Withdrawal owner asset target amount)).spent account asset' =
        w.spent account asset' + if owner = account ∧ asset = asset' then amount.toNat else 0 := by
      rw [spent, withdrawals_emit, same]
      simp [Event.isWithdrawal, Event.spent, spent, withdrawals, setCredit]
    have kept : w'.credited account asset' = w.credited account asset' := by
      rw [same]
      rfl
    have left : w'.credit account asset' = if owner = account ∧ asset = asset' then
        w.credit owner asset - amount else w.credit account asset' := by
      rw [← credit_setCredit, same]
      rfl
    change (w'.credit account asset').toNat + _ ≤ w'.credited account asset'
    rw [left, pulled, kept]
    split
    · rename_i own
      obtain ⟨rfl, rfl⟩ := own
      rw [BitVec.toNat_sub_of_le within]
      have := BitVec.le_def.mp within
      omega
    · exact before

/-- What an entry point does to the accounts. -/
def Accounts (P : Pools β) (incoming : P.Pool → Nat) (w w' : World β) : Prop :=
  ∀ i, w'.liabilities P i + P.custody w.assets i ≤
    w.liabilities P i + P.custody w'.assets i + incoming i

variable [Evm]

/-- What the body of an entry point does under the guard. -/
structure BodySpec (P : Pools β) (incoming : P.Pool → Nat) (w w' : World β) : Prop where
  timestamp : w'.timestamp = w.timestamp
  recorded : w'.Recorded
  booked : w.Booked P → w'.Booked P
  accounts : Accounts P incoming w w'

/-- **A settlement** pays out an unsettled lock. -/
theorem settle_spec (lawful : H.Lawful P msg incoming) {secret : Option UInt256} {event : Event}
    (entered : w.entered = true) (found : w.locks[lockId]? = some lock)
    (unsettled : lock.settled = false)
    (h : settle H gasleft lockId lock target secret event w = .ok w')
    (quiet : event.isWithdrawal = false)
    (entitles : lock.Entitles target w.timestamp secret) (recorded : w.Recorded) :
    BodySpec P incoming w w' := by
  simp only [settle, bind_eq_ok, pure_eq_ok] at h
  obtain ⟨⟨⟨delivered, credited⟩, paid⟩, payed, rfl⟩ := h
  have spec := payout_spec lawful payed entered
  constructor
  · exact spec.timestamp
  · exact recorded.settled (s := ⟨lockId, target, lock.asset, secret, w.timestamp, delivered, credited⟩)
      found unsettled ⟨rfl, spec.total.le, entitles⟩ spec.locks
      (congrArg (· ++ [_]) spec.settlements)
  · intro booked
    have flagged : Booked (emit { w with locks := w.locks.insert lockId { lock with settled := true } }
        event) P := by
      refine booked.congr rfl rfl ?_ rfl
      rw [withdrawals_emit, quiet]
      exact List.append_nil _
    exact flagged.settled spec secret w.timestamp
  · intro i
    have owes := liabilities_settled (P := P) (i := i) w found unsettled
    have paid_out := spec.accounts i
    simp only [emit] at paid_out
    change liabilities P i paid + P.custody w.assets i ≤
      liabilities P i { w with locks := w.locks.insert lockId { lock with settled := true } } +
        P.custody paid.assets i + _ at paid_out
    change liabilities P i paid + P.custody w.assets i ≤
      w.liabilities P i + P.custody paid.assets i + incoming i
    omega

theorem withdrawCredit_spec (lawful : H.Lawful P msg incoming)
    {requested : Option UInt256} (entered : w.entered = true)
    (h : withdrawCredit H msg asset target requested w = .ok w') (recorded : w.Recorded) :
    BodySpec P incoming w w' := by
  simp only [withdrawCredit, bind_eq_ok, rejectIf_eq_ok] at h
  obtain ⟨_, -, _, -, _, within, h⟩ := h
  generalize requested.getD (w.credit msg.sender asset) = amount at within h
  rcases pulled : H.pullTransfer target asset amount
    (w.setCredit msg.sender asset (w.credit msg.sender asset - amount)) with ⟨delivered, paid⟩
  simp only [pulled, pure_eq_ok, not_not] at h
  obtain ⟨_, rfl, rfl⟩ := h
  obtain ⟨same, sent, custody⟩ := lawful.pull pulled entered
  have within : delivered ≤ w.credit msg.sender asset := BitVec.not_lt.mp within
  constructor
  · simp only [emit]
    rw [same]
    rfl
  · refine recorded.congr ?_ ?_
    all_goals
      simp only [emit]
      rw [same]
      rfl
  · exact fun booked => booked.pulled within same sent
  · intro i
    have owes : paid.liabilities P i = (w.setCredit msg.sender asset
        (w.credit msg.sender asset - delivered)).liabilities P i :=
      liabilities_congr (by rw [same]) (by rw [same])
    have reduced := liabilities_setCredit (P := P) (i := i) w msg.sender asset
      (w.credit msg.sender asset - delivered)
    have parts := share_add P i asset (a := w.credit msg.sender asset - delivered) (b := delivered)
      (c := w.credit msg.sender asset) (by
        have := BitVec.le_def.mp within
        rw [BitVec.toNat_sub_of_le within]
        omega)
    have kept := custody i
    change liabilities P i paid + P.custody w.assets i ≤
      w.liabilities P i + P.custody paid.assets i + incoming i
    simp only [setCredit] at kept owes reduced
    omega

/-- What an entry point does. -/
structure CallSpec (P : Pools β) (incoming : P.Pool → Nat) (w w' : World β) : Prop where
  unlocked : w.entered = false
  released : w'.entered = false
  timestamp : w'.timestamp = w.timestamp
  recorded : w'.Recorded
  booked : w.Booked P → w'.Booked P
  accounts : Accounts P incoming w w'

/-- The guard turns what the body does into what the entry point does. -/
theorem nonReentrant_spec {body : World β → Except Revert (World β)}
    (spec : ∀ {v v'}, v.entered = true → body v = .ok v' → v.Recorded → BodySpec P incoming v v')
    (h : nonReentrant body w = .ok w') (recorded : w.Recorded) : CallSpec P incoming w w' := by
  simp only [nonReentrant, bind_eq_ok, rejectIf_eq_ok, pure_eq_ok, Bool.not_eq_true] at h
  obtain ⟨_, unlocked, v, run, rfl⟩ := h
  obtain ⟨timestamp, recorded', booked, accounts⟩ := spec rfl run (recorded.congr rfl rfl)
  exact ⟨unlocked, rfl, timestamp, recorded'.congr rfl rfl,
    fun before => (booked (before.congr rfl rfl rfl rfl)).congr rfl rfl rfl rfl, accounts⟩

section

variable (lawful : H.Lawful P msg incoming)
include lawful

theorem openLock_spec {terms : LockTerms}
    (sender : msg.sender ≠ 0) (h : openLock H msg terms w = .ok w') (recorded : w.Recorded) :
    CallSpec P incoming w w' := by
  refine nonReentrant_spec (fun {v v'} entered run recorded => ?_) h recorded
  simp only [bind_eq_ok, rejectIf_eq_ok] at run
  obtain ⟨_, -, _, -, _, -, _, -, _, free, run⟩ := run
  generalize deriveLockId (deriveBinding terms) msg.sender = id at free run
  obtain ⟨same, custody⟩ := lawful.take run entered
  have absent : v.locks[id]? = none := by
    cases found : v.locks[id]? with
    | none => rfl
    | some lock =>
      rw [not_not, lockOf, found] at free
      exact (recorded.known _ lock found free).elim
  have opened := recorded.opened absent ⟨msg.sender, terms.beneficiary, terms.adaptorAddress,
    terms.asset, terms.amount, terms.deadline, deriveBinding terms, false⟩ sender
  constructor
  · rw [same]
    rfl
  · refine opened.congr ?_ ?_
    · rw [same]
      rfl
    · rw [same]
      rfl
  · intro booked
    refine booked.congr ?_ ?_ ?_ ?_
    · rw [same]
      rfl
    · rw [same]
      rfl
    · rw [same]
      simp [withdrawals, emit, Event.isWithdrawal]
    · rw [same]
      rfl
  · intro i
    have owes := liabilities_opened (P := P) (i := i) v absent ⟨msg.sender,
      terms.beneficiary, terms.adaptorAddress, terms.asset, terms.amount, terms.deadline,
      deriveBinding terms, false⟩ rfl
    have took := custody i
    have owes' : v'.liabilities P i = liabilities P i { v with
        locks := v.locks.insert id ⟨msg.sender, terms.beneficiary, terms.adaptorAddress, terms.asset,
          terms.amount, terms.deadline, deriveBinding terms, false⟩ } :=
      liabilities_congr (by rw [same]; rfl) (by rw [same]; rfl)
    simp only [emit] at took owes
    rw [owes', owes]
    omega

theorem claim_spec {t : UInt256} (h : claim H msg lockId t w = .ok w') (recorded : w.Recorded) :
    CallSpec P incoming w w' := by
  refine nonReentrant_spec (fun {v v'} entered run recorded => ?_) h recorded
  simp only [bind_eq_ok, rejectIf_eq_ok, Bool.not_eq_true, not_or, not_not, Nat.not_le] at run
  obtain ⟨_, known, _, unsettled, _, -, _, early, recovered, secret, _, ⟨-, adaptor⟩, run⟩ := run
  obtain ⟨positive, below, rfl⟩ := addressOfScalarTimesG_eq_ok secret
  exact settle_spec lawful entered (lockOf_of_funder known) unsettled run rfl
    ⟨rfl, positive, below, adaptor, early⟩ recorded

theorem refund_spec (h : refund H msg lockId w = .ok w') (recorded : w.Recorded) :
    CallSpec P incoming w w' := by
  refine nonReentrant_spec (fun {v v'} entered run recorded => ?_) h recorded
  simp only [bind_eq_ok, rejectIf_eq_ok, Bool.not_eq_true, Nat.not_lt] at run
  obtain ⟨_, known, _, unsettled, _, late, run⟩ := run
  exact settle_spec lawful entered (lockOf_of_funder known) unsettled run rfl ⟨rfl, late⟩
    recorded

/-- **What every entry point does**, with any lawful hooks: it runs unlocked, keeps the settlements in
order and the books too, and its liabilities grow by no more than its custody and what came with the
message. -/
theorem Call.exec_spec (sender : msg.sender ≠ 0) (h : call.exec H msg w = .ok w')
    (recorded : w.Recorded) :
    CallSpec P incoming w w' := by
  cases call
  case «open» terms => exact openLock_spec lawful sender h recorded
  all_goals
    simp only [Call.exec, bind_eq_ok] at h
    obtain ⟨_, -, run⟩ := h
  case claim lockId t => exact claim_spec lawful run recorded
  case refund lockId => exact refund_spec lawful run recorded
  case withdraw asset => exact nonReentrant_spec (withdrawCredit_spec lawful) run recorded
  all_goals
    refine nonReentrant_spec (fun {v v'} entered run recorded => ?_) run recorded
    simp only [bind_eq_ok] at run
  case withdrawTo asset target =>
    obtain ⟨_, -, run⟩ := run
    exact withdrawCredit_spec lawful entered run recorded
  case withdrawAmount asset target amount =>
    obtain ⟨_, -, _, -, run⟩ := run
    exact withdrawCredit_spec lawful entered run recorded

end

/-- An entry point runs only while the guard is free. -/
theorem Call.exec_unlocked (h : call.exec H msg w = .ok w') : w.entered = false := by
  have guarded {body : World β → Except Revert (World β)} (run : nonReentrant body w = .ok w') :
      w.entered = false := by
    simp only [nonReentrant, bind_eq_ok, rejectIf_eq_ok, Bool.not_eq_true] at run
    obtain ⟨_, unlocked, -⟩ := run
    exact unlocked
  cases call with
  | «open» terms =>
    simp only [Call.exec, openLock] at h
    exact guarded h
  | _ =>
    simp only [Call.exec, bind_eq_ok] at h
    obtain ⟨_, -, run⟩ := h
    exact guarded run

/-- An unlocked contract whose pools cover what is owed and whose settlements and books are in order. -/
structure World.Sound (P : Pools β) (w : World β) : Prop where
  unlocked : w.entered = false
  solvent : w.Solvent P
  recorded : w.Recorded
  booked : w.Booked P

/-- A contract is sound after its deployment. -/
theorem deployed_sound (P : Pools β) (assets : β) (timestamp : Nat) :
    (deployed assets timestamp).Sound P where
  unlocked := rfl
  solvent i := by
    simp only [liabilities, deployed, Table.sumOf_empty]
    exact Nat.zero_le _
  recorded := by constructor <;> simp [deployed]
  booked := by
    constructor
    · simp [received, delivered, withdrawn, withdrawals, deployed]
    · simp [credit, spent, credited, withdrawals, deployed]

/-- **A call keeps a contract sound**, if custody holds what came with the message on top of what it
held before. -/
theorem Call.exec_sound (lawful : H.Lawful P msg incoming) {v : World β}
    (sender : msg.sender ≠ 0) (h : call.exec H msg v = .ok w') (sound : w.Sound P)
    (same : w.SameBooks v)
    (received : ∀ i, P.custody w.assets i + incoming i ≤ P.custody v.assets i) : w'.Sound P := by
  have recorded : v.Recorded := sound.recorded.congr (by rw [same]) (by rw [same])
  have spec := Call.exec_spec lawful sender h recorded
  have booked : v.Booked P :=
    sound.booked.congr (by rw [same]) (by rw [same]) (by rw [same]; rfl) (by rw [same])
  refine ⟨spec.released, fun i => ?_, spec.recorded, spec.booked booked⟩
  have owes : v.liabilities P i = w.liabilities P i := liabilities_congr (by rw [same]) (by rw [same])
  have before := sound.solvent i
  have gained := received i
  have accounts := spec.accounts i
  omega

end Accounts

end DomProtocol.ConditionLock
