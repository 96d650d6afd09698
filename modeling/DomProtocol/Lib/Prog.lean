import DomProtocol.Lib.Checked

/-! # Programs over a shared store

A client of a store is a **`Prog`**: it ends, or it calls one operation of an `Interface` and goes
on with the reply. Each operation is atomic, and between two of them anything the **`Environment`**
allows may happen to the store. A client with memory of its own that may fail is an **`Act`**.

* **`Steps`** are the executions of a program, complete or cut short;
* **`Safe`** says that every execution keeps an invariant and ends in a postcondition, and has one
  rule for each way of building a program;
* **`Uses`** bounds the operations a program may call;
* **`Environment.logged`** keeps the list of the operations carried out so far. -/

namespace DomProtocol

/-- The operations of a store and the type of the reply to each. -/
structure Interface where
  Op : Type
  Reply : Op → Type

/-- **A program** over an interface: it is done, or it calls an operation. -/
inductive Prog (I : Interface) (α : Type) : Type
  | done (a : α)
  | call (op : I.Op) (next : I.Reply op → Prog I α)

/-- One operation as it was carried out: the state it found and the reply it gave. -/
structure Call (I : Interface) (σ : Type) where
  op : I.Op
  before : σ
  reply : I.Reply op

/-- **What surrounds a program**: what an operation may do, and how the state may move between two
operations. -/
structure Environment (I : Interface) (σ : Type) where
  step : (op : I.Op) → σ → I.Reply op → σ → Prop
  rely : σ → σ → Prop
  refl : ∀ s, rely s s
  trans : ∀ {a b c}, rely a b → rely b c → rely a c

variable {I : Interface} {σ α β γ : Type}

namespace Environment

/-- The program has the store to itself. -/
def alone (step : (op : I.Op) → σ → I.Reply op → σ → Prop) : Environment I σ where
  step := step
  rely := Eq
  refl := Eq.refl
  trans := Eq.trans

/-- The same surroundings, with a log of the program's own calls. -/
def logged (E : Environment I σ) : Environment I (σ × List (Call I σ)) where
  step op s r s' := E.step op s.1 r s'.1 ∧ s'.2 = s.2 ++ [⟨op, s.1, r⟩]
  rely s s' := E.rely s.1 s'.1 ∧ s'.2 = s.2
  refl s := ⟨E.refl s.1, rfl⟩
  trans h h' := ⟨E.trans h.1 h'.1, h'.2.trans h.2⟩

end Environment

/-! ## Executions -/

namespace Prog

variable {p : Prog I α} {s s' : σ} {f : α → Prog I β} {p' : Prog I α}
  {exec : (op : I.Op) → σ → I.Reply op × σ} {allowed : I.Op → Prop}

/-- One program after another. -/
def bind : Prog I α → (α → Prog I β) → Prog I β
  | done a, f => f a
  | call op next, f => call op fun r => (next r).bind f

/-- Run a program to its end, each operation being a function of the state. -/
def run (exec : (op : I.Op) → σ → I.Reply op × σ) : Prog I α → σ → α × σ
  | done a, s => (a, s)
  | call op next, s => (next (exec op s).1).run exec (exec op s).2

/-- Running one program after another. -/
theorem run_bind (exec : (op : I.Op) → σ → I.Reply op × σ) (p : Prog I α) (f : α → Prog I β) (s : σ) :
    (p.bind f).run exec s = (f (p.run exec s).1).run exec (p.run exec s).2 := by
  induction p generalizing s with
  | done a => rfl
  | call op next ih => exact ih _ _

/-- **Executions**: a program at a state becomes another program at another state. -/
inductive Steps (E : Environment I σ) : Prog I α → σ → Prog I α → σ → Prop
  | idle {p : Prog I α} {s s' : σ} (moved : E.rely s s') : Steps E p s p s'
  | call {op : I.Op} {next : I.Reply op → Prog I α} {p : Prog I α} {s s₁ s₂ s' : σ}
      {r : I.Reply op} (moved : E.rely s s₁) (done : E.step op s₁ r s₂)
      (rest : Steps E (next r) s₂ p s') : Steps E (.call op next) s p s'

/-- **Safety**: every execution keeps `inv` after each operation and ends in `post`. -/
def Safe (E : Environment I σ) (inv : σ → Prop) (post : α → σ → Prop) : Prog I α → σ → Prop
  | done a, s => ∀ s', E.rely s s' → post a s'
  | call op next, s => ∀ s₁ r s₂, E.rely s s₁ → E.step op s₁ r s₂ →
      inv s₂ ∧ (next r).Safe E inv post s₂

variable {E : Environment I σ} {inv : σ → Prop} {post post' : α → σ → Prop}

/-- A safe program stays safe while the state moves. -/
theorem Safe.moved (safe : p.Safe E inv post s) (h : E.rely s s') : p.Safe E inv post s' := by
  cases p with
  | done a => exact fun t ht => safe t (E.trans h ht)
  | call op next => exact fun s₁ r s₂ hmove => safe s₁ r s₂ (E.trans h hmove)

/-- A weaker invariant and a weaker postcondition. -/
theorem Safe.weaken {inv' : σ → Prop} (safe : p.Safe E inv post s)
    (hinv : ∀ t, inv t → inv' t) (hpost : ∀ a t, post a t → post' a t) : p.Safe E inv' post' s := by
  induction p generalizing s with
  | done a => exact fun t ht => hpost a t (safe t ht)
  | call op next ih =>
    intro s₁ r s₂ hmove hstep
    obtain ⟨kept, hnext⟩ := safe s₁ r s₂ hmove hstep
    exact ⟨hinv s₂ kept, ih r hnext⟩

/-- A weaker postcondition. -/
theorem Safe.mono (safe : p.Safe E inv post s) (weaker : ∀ a t, post a t → post' a t) :
    p.Safe E inv post' s :=
  safe.weaken (fun _ h => h) weaker

/-- **Sequencing**: the second program is safe wherever the first ends. -/
theorem Safe.bind {post : β → σ → Prop}
    (safe : p.Safe E inv (fun a t => (f a).Safe E inv post t) s) :
    (p.bind f).Safe E inv post s := by
  induction p generalizing s with
  | done a => exact safe s (E.refl s)
  | call op next ih =>
    intro s₁ r s₂ hmove hstep
    obtain ⟨hinv, hnext⟩ := safe s₁ r s₂ hmove hstep
    exact ⟨hinv, ih r hnext⟩

/-- What is left of a safe program after some steps is safe. -/
theorem Safe.steps (run : Steps E p s p' s')
    (safe : p.Safe E inv post s) : p'.Safe E inv post s' := by
  induction run with
  | idle moved => exact safe.moved moved
  | call moved done rest ih => exact ih (safe _ _ _ moved done).2

/-- **Soundness for complete executions**: the last state meets the postcondition. -/
theorem Safe.post_of_steps {a : α} (safe : p.Safe E inv post s)
    (run : Steps E p s (.done a) s') : post a s' :=
  safe.steps run s' (E.refl s')

/-- **Soundness for executions cut short**: an invariant that survives the moves of the state holds
wherever an execution stops. -/
theorem Safe.inv_of_steps (safe : p.Safe E inv post s)
    (stable : ∀ t t', E.rely t t' → inv t → inv t') (start : inv s)
    (run : Steps E p s p' s') : inv s' := by
  induction run with
  | idle moved => exact stable _ _ moved start
  | call moved done rest ih =>
    obtain ⟨hinv, hnext⟩ := safe _ _ _ moved done
    exact ih hnext hinv

/-- The sequential run is an execution. -/
theorem steps_run
    (refines : ∀ op s, E.step op s (exec op s).1 (exec op s).2) (p : Prog I α) (s : σ) :
    Steps E p s (.done (p.run exec s).1) (p.run exec s).2 := by
  induction p generalizing s with
  | done a => exact .idle (E.refl s)
  | call op next ih => exact .call (E.refl s) (refines op s) (ih _ _)

/-- Operations that are functions of the state, with a log. -/
def logging (exec : (op : I.Op) → σ → I.Reply op × σ) (op : I.Op)
    (s : σ × List (Call I σ)) : I.Reply op × (σ × List (Call I σ)) :=
  ((exec op s.1).1, (exec op s.1).2, s.2 ++ [⟨op, s.1, (exec op s.1).1⟩])

/-- The sequential run with a log is an execution. -/
theorem steps_logging (refines : ∀ op s, E.step op s (exec op s).1 (exec op s).2) (p : Prog I α)
    (s : σ × List (Call I σ)) :
    Steps E.logged p s (.done (p.run (logging exec) s).1) (p.run (logging exec) s).2 := by
  refine steps_run ?_ p s
  intro op s
  exact ⟨refines op s.1, rfl⟩

/-- **Footprint**: the program calls allowed operations only, whatever the replies. -/
def Uses (allowed : I.Op → Prop) : Prog I α → Prop
  | done _ => True
  | call op next => allowed op ∧ ∀ r, (next r).Uses allowed

theorem Uses.bind
    (first : p.Uses allowed) (rest : ∀ a, (f a).Uses allowed) : (p.bind f).Uses allowed := by
  induction p with
  | done a => exact rest a
  | call op next ih => exact ⟨first.1, fun r => ih r (first.2 r)⟩

theorem Uses.mono {allowed' : I.Op → Prop} (uses : p.Uses allowed)
    (weaker : ∀ op, allowed op → allowed' op) : p.Uses allowed' := by
  induction p with
  | done a => trivial
  | call op next ih => exact ⟨weaker op uses.1, fun r => ih r (uses.2 r)⟩

/-- What every value the program may end with is, whatever the replies. -/
def Ends (result : α → Prop) : Prog I α → Prop
  | done a => result a
  | call _ next => ∀ r, (next r).Ends result

theorem Ends.bind {first : α → Prop} {result : β → Prop}
    (h : p.Ends first) (rest : ∀ a, first a → (f a).Ends result) : (p.bind f).Ends result := by
  induction p with
  | done a => exact rest a h
  | call op next ih => exact fun r => ih r (h r)

theorem Ends.safe {result : α → Prop} (h : p.Ends result)
    (safe : p.Safe E inv post s) : p.Safe E inv (fun a t => result a ∧ post a t) s := by
  induction p generalizing s with
  | done a => exact fun t moved => ⟨h, safe t moved⟩
  | call op next ih =>
    intro s₁ r s₂ moved done
    obtain ⟨hinv, rest⟩ := safe s₁ r s₂ moved done
    exact ⟨hinv, ih r (h r) rest⟩

/-- **Frame rule**: what every allowed operation keeps, the program keeps. -/
theorem Uses.safe (uses : p.Uses allowed)
    (keeps : ∀ op t r t', allowed op → E.step op t r t' → inv t → inv t')
    (stable : ∀ t t', E.rely t t' → inv t → inv t') (start : inv s) :
    p.Safe E inv (fun _ => inv) s := by
  induction p generalizing s with
  | done a => exact fun t ht => stable s t ht start
  | call op next ih =>
    intro s₁ r s₂ hmove hstep
    have hinv := keeps op s₁ r s₂ uses.1 hstep (stable s s₁ hmove start)
    exact ⟨hinv, ih r (uses.2 r) hinv⟩

end Prog

/-! ## Clients with memory -/

/-- **A client's action**: it works on the client's memory, calls operations, and returns a value or
fails; either way the memory is as the action left it. -/
def Act (I : Interface) (μ ε α : Type) : Type := μ → Prog I (Except ε α × μ)

namespace Act

variable {μ ν ε ε' : Type}

variable {exec : (op : I.Op) → σ → I.Reply op × σ} {a : α}

/-- Return a value. -/
def ret (a : α) : Act I μ ε α := fun m => .done (.ok a, m)

/-- Go on after a value, stop at an error. -/
def andThen (x : Act I μ ε α) (f : α → Act I μ ε β) : Act I μ ε β := fun m =>
  (x m).bind fun
    | (.ok a, m') => f a m'
    | (.error e, m') => .done (.error e, m')

instance : Monad (Act I μ ε) where
  pure := ret
  bind := andThen

/-- Fail. -/
def fail (e : ε) : Act I μ ε α := fun m => .done (.error e, m)

/-- The memory. -/
def get : Act I μ ε μ := fun m => .done (.ok m, m)

/-- Change the memory. -/
def modify (f : μ → μ) : Act I μ ε Unit := fun m => .done (.ok (), f m)

/-- Call an operation. -/
def perform (op : I.Op) : Act I μ ε (I.Reply op) := fun m => .call op fun r => .done (.ok r, m)

/-- Use the outcome of a fallible function. -/
def lift (x : Except ε α) : Act I μ ε α := fun m => .done (x, m)

/-- Look at the outcome of an action instead of failing with it. -/
def attempt (x : Act I μ ε α) : Act I μ ε' (Except ε α) := fun m =>
  (x m).bind fun | (outcome, m') => .done (.ok outcome, m')

/-- Replace the error of an action. -/
def mapError (f : ε → ε') (x : Act I μ ε α) : Act I μ ε' α := fun m =>
  (x m).bind fun
    | (.ok a, m') => .done (.ok a, m')
    | (.error e, m') => .done (.error (f e), m')

/-- Run an action on a part of the memory. -/
def zoom (read : ν → μ) (write : μ → ν → ν) (x : Act I μ ε α) : Act I ν ε α := fun n =>
  (x (read n)).bind fun | (outcome, m') => .done (outcome, write m' n)

/-- Run the body on every item in order, stopping at the first error. -/
def forEach (body : α → Act I μ ε Unit) : List α → Act I μ ε Unit
  | [] => ret ()
  | item :: items => do
    body item
    forEach body items

/-- Running an action and then another. -/
theorem run_bind {x : Act I μ ε α} {f : α → Act I μ ε β}
    {m m' : μ} {s s' : σ} (h : (x m).run exec s = ((.ok a, m'), s')) :
    ((x >>= f) m).run exec s = (f a m').run exec s' := by
  have unfolded : ((x >>= f) m).run exec s = ((x m).bind fun
      | (.ok a, m') => f a m'
      | (.error e, m') => .done (.error e, m')).run exec s := rfl
  rw [unfolded, Prog.run_bind, h]

theorem run_get (m : μ) (s : σ) : ((get : Act I μ ε μ) m).run exec s = ((.ok m, m), s) := rfl

theorem run_lift {x : Except ε α} (h : x = .ok a)
    (m : μ) (s : σ) : ((lift x : Act I μ ε α) m).run exec s = ((.ok a, m), s) := by
  rw [h]
  rfl

/-! ### Footprints -/

/-- The action calls allowed operations only. -/
structure Uses (allowed : I.Op → Prop) (x : Act I μ ε α) : Prop where
  prog : ∀ m, (x m).Uses allowed

section Footprints

variable {allowed : I.Op → Prop}

variable {x : Act I μ ε α} {f : α → Act I μ ε β}

@[simp] theorem uses_ret (a : α) : Uses allowed (pure a : Act I μ ε α) := ⟨fun _ => trivial⟩

@[simp] theorem uses_fail (e : ε) : Uses allowed (fail e : Act I μ ε α) := ⟨fun _ => trivial⟩

theorem Uses.bind (first : Uses allowed x)
    (rest : ∀ a, Uses allowed (f a)) : Uses allowed (x >>= f) := by
  refine ⟨fun m => Prog.Uses.bind (first.prog m) ?_⟩
  rintro ⟨_ | a, m'⟩
  · trivial
  · exact (rest a).prog m'

theorem Uses.mapError (f : ε → ε') (uses : Uses allowed x) : Uses allowed (mapError f x) := by
  refine ⟨fun m => Prog.Uses.bind (uses.prog m) ?_⟩
  rintro ⟨_ | a, m'⟩ <;> trivial

theorem Uses.mono {allowed' : I.Op → Prop} (uses : Uses allowed x)
    (weaker : ∀ op, allowed op → allowed' op) : Uses allowed' x :=
  ⟨fun m => (uses.prog m).mono weaker⟩

/-- The action calls allowed operations only, and leaves its memory alone. -/
structure Silent (allowed : I.Op → Prop) (x : Act I μ ε α) : Prop where
  uses : Uses allowed x
  ends : ∀ m, (x m).Ends fun outcome => outcome.2 = m

theorem silent_ret (a : α) : Silent allowed (pure a : Act I μ ε α) := ⟨uses_ret a, fun _ => rfl⟩

theorem silent_fail (e : ε) : Silent allowed (fail e : Act I μ ε α) := ⟨uses_fail e, fun _ => rfl⟩

theorem Silent.bind (first : Silent allowed x)
    (rest : ∀ a, Silent allowed (f a)) : Silent allowed (x >>= f) := by
  refine ⟨first.uses.bind fun a => (rest a).uses, fun m => (first.ends m).bind ?_⟩
  rintro ⟨_ | a, m'⟩ rfl
  · rfl
  · exact (rest a).ends _

theorem Silent.mapError (f : ε → ε') (h : Silent allowed x) : Silent allowed (mapError f x) := by
  refine ⟨h.uses.mapError f, fun m => (h.ends m).bind ?_⟩
  rintro ⟨_ | a, m'⟩ rfl <;> rfl

end Footprints

variable {x : Act I μ ε α} {f : α → Act I μ ε β} {allowed : I.Op → Prop}

/-! ### Safety rules -/

/-- Safety of an action: what holds if it returns, and what holds if it fails. -/
def Safe (E : Environment I σ) (inv : σ → Prop) (x : Act I μ ε α) (m : μ) (s : σ)
    (ok : α → μ → σ → Prop) (err : ε → μ → σ → Prop) : Prop :=
  (x m).Safe E inv (fun outcome t =>
    match outcome.1 with
    | .ok a => ok a outcome.2 t
    | .error e => err e outcome.2 t) s

variable {E : Environment I σ} {inv : σ → Prop} {m : μ} {s : σ}
  {ok ok' : α → μ → σ → Prop} {err err' : ε → μ → σ → Prop}

/-- Weaker postconditions. -/
theorem Safe.mono (safe : Safe E inv x m s ok err)
    (hok : ∀ a m' t, ok a m' t → ok' a m' t) (herr : ∀ e m' t, err e m' t → err' e m' t) :
    Safe E inv x m s ok' err' := by
  refine Prog.Safe.mono safe ?_
  rintro ⟨_ | a, m'⟩ t h
  · exact herr _ _ _ h
  · exact hok _ _ _ h

theorem Safe.within {inv' : σ → Prop} (safe : Safe E inv x m s ok err)
    (weaker : ∀ t, inv t → inv' t) : Safe E inv' x m s ok err :=
  Prog.Safe.weaken safe weaker fun _ _ h => h

theorem Safe.ret {a : α} (h : ∀ t, E.rely s t → ok a m t) :
    Safe E inv (pure a : Act I μ ε α) m s ok err := h

theorem Safe.fail {e : ε} (h : ∀ t, E.rely s t → err e m t) :
    Safe E inv (fail e : Act I μ ε α) m s ok err := h

theorem Safe.get {ok : μ → μ → σ → Prop} (h : ∀ t, E.rely s t → ok m m t) :
    Safe E inv (get : Act I μ ε μ) m s ok err := h

theorem Safe.modify {f : μ → μ} {ok : Unit → μ → σ → Prop} (h : ∀ t, E.rely s t → ok () (f m) t) :
    Safe E inv (modify f : Act I μ ε Unit) m s ok err := h

theorem Safe.lift {x : Except ε α} (hok : ∀ a, x = .ok a → ∀ t, E.rely s t → ok a m t)
    (herr : ∀ e, x = .error e → ∀ t, E.rely s t → err e m t) :
    Safe E inv (lift x : Act I μ ε α) m s ok err := by
  cases x with
  | error e => exact herr e rfl
  | ok a => exact hok a rfl

/-- **Sequencing**: the continuation is safe wherever the first action returns, and a failure of the
first is a failure of the whole. -/
theorem Safe.bind {ok : β → μ → σ → Prop}
    (safe : Safe E inv x m s (fun a m' t => Safe E inv (f a) m' t ok err)
      (fun e m' t => ∀ t', E.rely t t' → err e m' t')) :
    Safe E inv (x >>= f) m s ok err := by
  refine Prog.Safe.bind (Prog.Safe.mono safe ?_)
  rintro ⟨_ | a, m'⟩ t h
  · exact h
  · exact h

theorem Safe.attempt {ok : Except ε α → μ → σ → Prop} {err : ε' → μ → σ → Prop}
    (safe : Safe E inv x m s (fun a m' t => ∀ t', E.rely t t' → ok (.ok a) m' t')
      (fun e m' t => ∀ t', E.rely t t' → ok (.error e) m' t')) :
    Safe E inv (attempt x : Act I μ ε' (Except ε α)) m s ok err := by
  refine Prog.Safe.bind (Prog.Safe.mono safe ?_)
  rintro ⟨_ | a, m'⟩ t h
  · exact h
  · exact h

theorem Safe.mapError {f : ε → ε'} {err : ε' → μ → σ → Prop}
    (safe : Safe E inv x m s (fun a m' t => ∀ t', E.rely t t' → ok a m' t')
      (fun e m' t => ∀ t', E.rely t t' → err (f e) m' t')) :
    Safe E inv (mapError f x) m s ok err := by
  refine Prog.Safe.bind (Prog.Safe.mono safe ?_)
  rintro ⟨_ | a, m'⟩ t h
  · exact h
  · exact h

theorem Safe.zoom {read : ν → μ} {write : μ → ν → ν} {n : ν}
    {ok : α → ν → σ → Prop} {err : ε → ν → σ → Prop}
    (safe : Safe E inv x (read n) s (fun a m' t => ∀ t', E.rely t t' → ok a (write m' n) t')
      (fun e m' t => ∀ t', E.rely t t' → err e (write m' n) t')) :
    Safe E inv (zoom read write x) n s ok err := by
  refine Prog.Safe.bind (Prog.Safe.mono safe ?_)
  rintro ⟨_ | a, m'⟩ t h
  · exact h
  · exact h

/-- **Frame rule**: what every allowed operation keeps, the action keeps. -/
theorem Uses.safe (uses : Uses allowed x)
    (keeps : ∀ op t r t', allowed op → E.step op t r t' → inv t → inv t')
    (stable : ∀ t t', E.rely t t' → inv t → inv t') (start : inv s) :
    Safe E inv x m s (fun _ _ => inv) (fun _ _ => inv) := by
  refine Prog.Safe.mono ((uses.prog m).safe keeps stable start) ?_
  rintro ⟨_ | a, m'⟩ t h <;> exact h

/-- **Loops**: what every pass keeps of the items still to come, the loop keeps to its end. -/
theorem Safe.forEach {body : α → Act I μ ε Unit} (J : List α → μ → σ → Prop)
    (stable : ∀ items m t t', E.rely t t' → J items m t → J items m t')
    (pass : ∀ item items m t, J (item :: items) m t →
      Safe E inv (body item) m t (fun _ m' t' => J items m' t')
        (fun e m' t' => ∀ t'', E.rely t' t'' → err e m' t''))
    {items : List α} (start : J items m s) :
    Safe E inv (forEach body items) m s (fun _ m' t => J [] m' t) err := by
  induction items generalizing m s with
  | nil => exact fun t ht => stable _ _ _ _ ht start
  | cons item items ih =>
    exact Safe.bind ((pass item items m s start).mono (fun _ _ _ h => ih h) fun _ _ _ h => h)

end Act

/-! ## Regimes -/

/-- **A regime**: surroundings, and an invariant of the state that survives its moves. -/
structure Regime (I : Interface) (σ : Type) where
  env : Environment I σ
  inv : σ → Prop
  stable : ∀ s s', env.rely s s' → inv s → inv s'

namespace Act

variable {μ ν ε ε' : Type} {G : Regime I σ} {M : μ → Prop} {Q : α → Prop} {R : β → Prop}

variable {x : Act I μ ε α}

/-- **An action that keeps a regime**: it keeps the invariant of the state and the property `M` of its
memory, and a value it returns has the property `Q`. There is one rule for each way of building an
action. -/
structure Keeping (G : Regime I σ) (M : μ → Prop) (Q : α → Prop) (x : Act I μ ε α) : Prop where
  safe : ∀ m s, M m → G.inv s →
    Safe G.env G.inv x m s (fun a m' t => M m' ∧ Q a ∧ G.inv t) (fun _ m' t => M m' ∧ G.inv t)

theorem keeping_ret {a : α} (h : Q a) : Keeping G M Q (pure a : Act I μ ε α) :=
  ⟨fun _ _ hm start => Safe.ret fun _ moved => ⟨hm, h, G.stable _ _ moved start⟩⟩

theorem keeping_fail (e : ε) : Keeping G M Q (fail e : Act I μ ε α) :=
  ⟨fun _ _ hm start => Safe.fail fun _ moved => ⟨hm, G.stable _ _ moved start⟩⟩

theorem keeping_get : Keeping G M M (get : Act I μ ε μ) :=
  ⟨fun _ _ hm start => Safe.get fun _ moved => ⟨hm, hm, G.stable _ _ moved start⟩⟩

theorem keeping_modify {f : μ → μ} (h : ∀ m, M m → M (f m)) :
    Keeping G M (fun _ => True) (modify f : Act I μ ε Unit) :=
  ⟨fun m _ hm start => Safe.modify fun _ moved => ⟨h m hm, trivial, G.stable _ _ moved start⟩⟩

theorem keeping_lift {x : Except ε α} (h : ∀ a, x = .ok a → Q a) :
    Keeping G M Q (lift x : Act I μ ε α) :=
  ⟨fun _ _ hm start => Safe.lift (fun a ha _ moved => ⟨hm, h a ha, G.stable _ _ moved start⟩)
    fun _ _ _ moved => ⟨hm, G.stable _ _ moved start⟩⟩

theorem Keeping.bind {f : α → Act I μ ε β} (first : Keeping G M Q x)
    (rest : ∀ a, Q a → Keeping G M R (f a)) : Keeping G M R (x >>= f) :=
  ⟨fun m s hm start => Safe.bind ((first.safe m s hm start).mono
    (fun a m' t done => (rest a done.2.1).safe m' t done.1 done.2.2)
    fun _ _ _ done _ moved => ⟨done.1, G.stable _ _ moved done.2⟩)⟩

theorem Keeping.attempt (h : Keeping G M Q x) :
    Keeping G M (fun outcome => ∀ a, outcome = .ok a → Q a)
      (attempt x : Act I μ ε' (Except ε α)) := by
  refine ⟨fun m s hm start => Safe.attempt ((h.safe m s hm start).mono ?_ ?_)⟩
  · rintro a m' t ⟨hm', ha, done⟩ t' moved
    refine ⟨hm', ?_, G.stable _ _ moved done⟩
    rintro b ⟨⟩
    exact ha
  · rintro e m' t ⟨hm', done⟩ t' moved
    refine ⟨hm', ?_, G.stable _ _ moved done⟩
    rintro b ⟨⟩

theorem Keeping.mapError (f : ε → ε') (h : Keeping G M Q x) : Keeping G M Q (mapError f x) :=
  ⟨fun m s hm start => Safe.mapError ((h.safe m s hm start).mono
    (fun _ _ _ done _ moved => ⟨done.1, done.2.1, G.stable _ _ moved done.2.2⟩)
    fun _ _ _ done _ moved => ⟨done.1, G.stable _ _ moved done.2⟩)⟩

theorem Keeping.zoom {N : ν → Prop} {read : ν → μ} {write : μ → ν → ν}
    (h : Keeping G M Q x) (part : ∀ n, N n → M (read n))
    (whole : ∀ m n, M m → N n → N (write m n)) : Keeping G N Q (zoom read write x) :=
  ⟨fun n s hn start => Safe.zoom ((h.safe (read n) s (part n hn) start).mono
    (fun _ _ _ done _ moved => ⟨whole _ _ done.1 hn, done.2.1, G.stable _ _ moved done.2.2⟩)
    fun _ _ _ done _ moved => ⟨whole _ _ done.1 hn, G.stable _ _ moved done.2⟩)⟩

theorem Keeping.forEach {body : α → Act I μ ε Unit} {items : List α}
    (h : ∀ item ∈ items, Keeping G M (fun _ => True) (body item)) :
    Keeping G M (fun _ => True) (forEach body items) := by
  induction items with
  | nil => exact keeping_ret trivial
  | cons item items ih =>
    exact (h item List.mem_cons_self).bind fun _ _ =>
      ih fun other mem => h other (List.mem_cons_of_mem _ mem)

/-- **Frame rule**: a silent action keeps what its operations keep. -/
theorem Silent.keeping {allowed : I.Op → Prop} (h : Silent allowed x)
    (kept : ∀ op s r s', allowed op → G.env.step op s r s' → G.inv s → G.inv s') :
    Keeping G M (fun _ => True) x := by
  refine ⟨fun m s hm start => ?_⟩
  refine Prog.Safe.mono ((h.ends m).safe (h.uses.safe kept G.stable start)) ?_
  rintro ⟨_ | a, m'⟩ t ⟨rfl, inv⟩
  · exact ⟨hm, inv⟩
  · exact ⟨hm, trivial, inv⟩

/-- **One call**: what it keeps, and what is known of its reply. -/
theorem Keeping.call (op : I.Op) (reply : I.Reply op → Except ε α)
    (kept : ∀ s r s', G.env.step op s r s' → G.inv s → G.inv s')
    (known : ∀ s r s' a, G.env.step op s r s' → G.inv s → reply r = .ok a → Q a) :
    Keeping G M Q (fun m => .call op fun r => .done (reply r, m) : Act I μ ε α) := by
  refine ⟨fun m s hm start s₁ r s₂ moved done => ?_⟩
  have before := G.stable _ _ moved start
  have after := kept _ _ _ done before
  refine ⟨after, fun t moved' => ?_⟩
  dsimp only
  cases outcome : reply r with
  | error e => exact ⟨hm, G.stable _ _ moved' after⟩
  | ok a => exact ⟨hm, known _ _ _ _ done before outcome, G.stable _ _ moved' after⟩

end Act

end DomProtocol
