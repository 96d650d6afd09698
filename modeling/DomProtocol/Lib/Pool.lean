import DomProtocol.Lib.Prog

/-! # Programs that run at the same time

Any number of programs work on one store. They enter at any time, and one operation of one of them is
carried out at a time (**`PoolStep`**); a program that crashes is one whose turn never comes again.

What the programs owe each other is a property of each operation in the state it finds: it is
`fair`. A program is fair if, as long as the others are, every operation it calls is
(**`Prog.Fair`**), and then every run of a pool of fair programs is a sequence of fair operations
(**`pool_fair`**). -/

namespace DomProtocol

variable {I : Interface} {σ α β : Type}

variable {state state' : σ × List (Call I σ)}

/-- A fair operation is carried out. -/
def FairStep (step : (op : I.Op) → σ → I.Reply op → σ → Prop) (fair : I.Op → σ → Prop)
    (s s' : σ) : Prop :=
  ∃ op r, fair op s ∧ step op s r s'

/-- Any number of fair operations. -/
abbrev FairRun (step : (op : I.Op) → σ → I.Reply op → σ → Prop) (fair : I.Op → σ → Prop) :
    σ → σ → Prop :=
  Relation.ReflTransGen (FairStep step fair)

/-- The others call fair operations. -/
def Environment.among (step : (op : I.Op) → σ → I.Reply op → σ → Prop) (fair : I.Op → σ → Prop) :
    Environment I σ where
  step := step
  rely := FairRun step fair
  refl _ := .refl
  trans := Relation.ReflTransGen.trans

/-- The calls of a log were fair. -/
def FairLog (fair : I.Op → σ → Prop) (state : σ × List (Call I σ)) : Prop :=
  ∀ c ∈ state.2, fair c.op c.before

variable {step : (op : I.Op) → σ → I.Reply op → σ → Prop} {fair : I.Op → σ → Prop}

theorem FairLog.stable
    (moved : (Environment.among step fair).logged.rely state state') (h : FairLog fair state) :
    FairLog fair state' := by
  intro c mem
  rw [moved.2] at mem
  exact h c mem

/-- A fair call keeps the log fair. -/
theorem FairLog.called {op : I.Op} {r : I.Reply op}
    (done : (Environment.among step fair).logged.step op state r state') (h : FairLog fair state)
    (now : fair op state.1) : FairLog fair state' := by
  intro c mem
  rw [done.2, mem_snoc] at mem
  rcases mem with old | rfl
  · exact h c old
  · exact now

/-- **A fair program**: among fair ones, every operation it calls is fair. -/
structure Prog.Fair (step : (op : I.Op) → σ → I.Reply op → σ → Prop) (fair : I.Op → σ → Prop)
    (p : Prog I α) : Prop where
  safe : ∀ s, p.Safe (Environment.among step fair).logged (FairLog fair) (fun _ _ => True) (s, [])

/-! ## Pools -/

/-- The programs that run, and the state they work on. -/
abbrev Pool (I : Interface) (σ α : Type) := List (Prog I α) × σ

/-- **One step of a pool**: a program enters, or one operation of a program is carried out. -/
inductive PoolStep (step : (op : I.Op) → σ → I.Reply op → σ → Prop) (client : Prog I α → Prop) :
    Pool I σ α → Pool I σ α → Prop
  | enter {ps : List (Prog I α)} {s : σ} (p : Prog I α) (h : client p) :
      PoolStep step client (ps, s) (p :: ps, s)
  | act (before after : List (Prog I α)) {s s' : σ} {op : I.Op} {next : I.Reply op → Prog I α}
      {r : I.Reply op} (done : step op s r s') :
      PoolStep step client (before ++ .call op next :: after, s) (before ++ next r :: after, s')

/-- What is left of every program is still fair. -/
def Pool.Fair (step : (op : I.Op) → σ → I.Reply op → σ → Prop) (fair : I.Op → σ → Prop)
    (pool : Pool I σ α) : Prop :=
  ∀ p ∈ pool.1, ∃ log, p.Safe (Environment.among step fair).logged (FairLog fair) (fun _ _ => True)
    (pool.2, log)

variable {client : Prog I α → Prop} {pool pool' : Pool I σ α}

/-- A step of a pool of fair programs is a fair operation, and leaves the rest fair. -/
theorem PoolStep.keeps_fair (move : PoolStep step client pool pool')
    (clients : ∀ p, client p → p.Fair step fair) (h : pool.Fair step fair) :
    FairRun step fair pool.2 pool'.2 ∧ pool'.Fair step fair := by
  cases move with
  | enter p entered =>
    refine ⟨.refl, fun q mem => ?_⟩
    rcases List.mem_cons.mp mem with rfl | mem
    · exact ⟨[], (clients _ entered).safe _⟩
    · exact h q mem
  | @act before after s s' op next r done =>
    obtain ⟨log, safe⟩ := h (.call op next) (by simp)
    obtain ⟨fairLog, rest⟩ := safe (s, log) r (s', log ++ [⟨op, s, r⟩])
      ((Environment.among step fair).logged.refl _) ⟨done, rfl⟩
    have now : fair op s := fairLog ⟨op, s, r⟩ (by simp)
    have move : FairRun step fair s s' := .single ⟨op, r, now, done⟩
    refine ⟨move, fun q mem => ?_⟩
    -- the program that acted goes on; for the others the state moved
    have others (hq : q ∈ before ∨ q ∈ after) : ∃ log, q.Safe (Environment.among step fair).logged
        (FairLog fair) (fun _ _ => True) (s', log) := by
      obtain ⟨log', safe'⟩ := h q (by rcases hq with hq | hq <;> simp [hq])
      exact ⟨log', safe'.moved ⟨move, rfl⟩⟩
    rcases List.mem_append.mp mem with mem | mem
    · exact others (.inl mem)
    · rcases List.mem_cons.mp mem with rfl | mem
      · exact ⟨_, rest⟩
      · exact others (.inr mem)

/-- **A run of a pool of fair programs is a sequence of fair operations.** -/
theorem pool_fair (clients : ∀ p, client p → p.Fair step fair)
    (run : Relation.ReflTransGen (PoolStep step client) pool pool') (h : pool.Fair step fair) :
    FairRun step fair pool.2 pool'.2 ∧ pool'.Fair step fair := by
  induction run with
  | refl => exact ⟨.refl, h⟩
  | tail _ move ih =>
    obtain ⟨earlier, still⟩ := ih
    obtain ⟨now, rest⟩ := move.keeps_fair clients still
    exact ⟨earlier.trans now, rest⟩

/-! ## Fairness of clients -/

/-- The regime of a fair client: the others are fair, and so were its calls. -/
def fairRegime (step : (op : I.Op) → σ → I.Reply op → σ → Prop) (fair : I.Op → σ → Prop) :
    Regime I (σ × List (Call I σ)) where
  env := (Environment.among step fair).logged
  inv := FairLog fair
  stable _ _ moved h := h.stable moved

/-- A fair call keeps the regime. -/
theorem fairRegime_called {op : I.Op} {r : I.Reply op}
    (done : (fairRegime step fair).env.step op state r state') (now : fair op state.1)
    (h : (fairRegime step fair).inv state) : (fairRegime step fair).inv state' :=
  FairLog.called done h now

/-- A program that enters a pool may run to its end at once. -/
theorem pool_run (client : Prog I α → Prop) {exec : (op : I.Op) → σ → I.Reply op × σ}
    (refines : ∀ op s, step op s (exec op s).1 (exec op s).2) (ps : List (Prog I α)) (p : Prog I α)
    (s : σ) :
    Relation.ReflTransGen (PoolStep step client) (p :: ps, s)
      (.done (p.run exec s).1 :: ps, (p.run exec s).2) := by
  induction p generalizing s with
  | done a => exact .refl
  | call op next ih => exact .head (.act [] ps (refines op s)) (ih _ _)

end DomProtocol
