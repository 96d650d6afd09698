import DomProtocol.Lib.Prog
import DomProtocol.Lib.Table

/-! # Complete executions and loops over tables

**`Act.Runs`** says how an action of a client ends when it has the store to itself: with which
outcome, in which memory and in which state. It has one rule for each way of building an action, and
for a loop whose passes succeed the rule **`Act.runs_forEach`**.

The loops such clients run over a table come in two kinds. **`Table.updateAll`** rewrites the entries
of the listed keys, and **`Table.insertMissing`** adds entries whose keys are not there yet, the first
of several entries of one key. Each has one lemma about a lookup afterwards. -/

namespace DomProtocol

namespace Act

variable {I : Interface} {σ α β μ ε : Type} {exec : (op : I.Op) → σ → I.Reply op × σ}

variable {x : Act I μ ε α} {m m₁ m₂ : μ} {s s₁ s₂ : σ} {f : α → Act I μ ε β} {a : α}
  {outcome : Except ε β} {m' : μ} {s' : σ} {body : α → Act I μ ε Unit} {items : List α}

/-- **A complete execution**: started in memory `m` and state `s`, the action ends with `outcome` in
memory `m'` and state `s'`. -/
def Runs (exec : (op : I.Op) → σ → I.Reply op × σ) (x : Act I μ ε α) (m : μ) (s : σ)
    (outcome : Except ε α) (m' : μ) (s' : σ) : Prop :=
  (x m).run exec s = ((outcome, m'), s')

/-- There is one execution. -/
theorem Runs.unique {r₁ r₂ : Except ε α}
    (first : Runs exec x m s r₁ m₁ s₁) (second : Runs exec x m s r₂ m₂ s₂) :
    r₁ = r₂ ∧ m₁ = m₂ ∧ s₁ = s₂ := by
  have same := first.symm.trans second
  simp only [Prod.mk.injEq] at same
  exact ⟨same.1.1, same.1.2, same.2⟩

/-- Every action ends. -/
theorem exists_runs (exec : (op : I.Op) → σ → I.Reply op × σ) (x : Act I μ ε α) (m : μ) (s : σ) :
    ∃ outcome m' s', Runs exec x m s outcome m' s' := ⟨_, _, _, rfl⟩

theorem runs_pure (a : α) (m : μ) (s : σ) : Runs exec (pure a : Act I μ ε α) m s (.ok a) m s := rfl

theorem runs_get (m : μ) (s : σ) : Runs exec (get : Act I μ ε μ) m s (.ok m) m s := rfl

theorem runs_fail (e : ε) (m : μ) (s : σ) :
    Runs exec (fail e : Act I μ ε α) m s (.error e) m s := rfl

theorem runs_modify (f : μ → μ) (m : μ) (s : σ) :
    Runs exec (modify f : Act I μ ε Unit) m s (.ok ()) (f m) s := rfl

theorem runs_lift (x : Except ε α) (m : μ) (s : σ) :
    Runs exec (lift x : Act I μ ε α) m s x m s := rfl

theorem runs_perform (op : I.Op) (m : μ) (s : σ) :
    Runs exec (perform op : Act I μ ε (I.Reply op)) m s (.ok (exec op s).1) m (exec op s).2 := rfl

/-- **Sequencing** after a value. -/
theorem Runs.bind (first : Runs exec x m s (.ok a) m₁ s₁)
    (rest : Runs exec (f a) m₁ s₁ outcome m₂ s₂) : Runs exec (x >>= f) m s outcome m₂ s₂ :=
  (run_bind first).trans rest

/-- A failure of the first action is a failure of the whole. -/
theorem Runs.bind_error {e : ε}
    (first : Runs exec x m s (.error e) m₁ s₁) : Runs exec (x >>= f) m s (.error e) m₁ s₁ := by
  show ((andThen x f) m).run exec s = _
  unfold andThen
  rw [Prog.run_bind, first]
  rfl

/-- What is left of a sequence after its first action. -/
theorem Runs.rest (run : Runs exec (x >>= f) m s outcome m₂ s₂)
    (first : Runs exec x m s (.ok a) m₁ s₁) : Runs exec (f a) m₁ s₁ outcome m₂ s₂ :=
  (run_bind first).symm.trans run

/-- A sequence that starts with a pure computation. -/
theorem Runs.of_lift_bind {x : Except ε α} (run : Runs exec (lift x >>= f) m s outcome m' s') :
    (∃ e, x = .error e ∧ m' = m ∧ s' = s) ∨
      ∃ a, x = .ok a ∧ Runs exec (f a) m s outcome m' s' := by
  cases x with
  | error e =>
    obtain ⟨-, rfl, rfl⟩ := run.unique (runs_lift (.error e) m s).bind_error
    exact .inl ⟨e, rfl, rfl, rfl⟩
  | ok a => exact .inr ⟨a, rfl, run.rest (runs_lift (.ok a) m s)⟩

/-- A sequence that starts with a pure computation and succeeds. -/
theorem Runs.ok_of_lift_bind {x : Except ε α} {b : β}
    (run : Runs exec (lift x >>= f) m s (.ok b) m' s') :
    ∃ a, x = .ok a ∧ Runs exec (f a) m s (.ok b) m' s' := by
  cases x with
  | error e => cases (run.unique (runs_lift (.error e) m s).bind_error).1
  | ok a => exact ⟨a, rfl, run.rest (runs_lift (.ok a) m s)⟩

/-- An attempt ends with the outcome as its value. -/
theorem Runs.attempt {ε' : Type} {outcome : Except ε α} (run : Runs exec x m s outcome m' s') :
    Runs exec (attempt x : Act I μ ε' (Except ε α)) m s (.ok outcome) m' s' := by
  unfold Runs Act.attempt
  rw [Prog.run_bind, run]
  rfl

/-- **Loops whose passes succeed**: where every pass takes memory and state to `next`, the loop takes
them through the list. -/
theorem runs_forEach (next : μ × σ → α → μ × σ) (Fit : List α → μ × σ → Prop)
    (pass : ∀ item items state, Fit (item :: items) state →
      Runs exec (body item) state.1 state.2 (.ok ()) (next state item).1 (next state item).2 ∧
        Fit items (next state item)) (start : Fit items (m, s)) :
    Runs exec (forEach body items) m s (.ok ()) (items.foldl next (m, s)).1
      (items.foldl next (m, s)).2 := by
  induction items generalizing m s with
  | nil => exact runs_pure () m s
  | cons item items ih =>
    obtain ⟨run, fit⟩ := pass item items (m, s) start
    exact run.bind (ih fit)

/-- A loop whose first part succeeds goes on with the rest. -/
theorem Runs.forEach_append {later : List α} {outcome : Except ε Unit}
    (first : Runs exec (forEach body items) m s (.ok ()) m₁ s₁)
    (rest : Runs exec (forEach body later) m₁ s₁ outcome m₂ s₂) :
    Runs exec (forEach body (items ++ later)) m s outcome m₂ s₂ := by
  induction items generalizing m s with
  | nil =>
    obtain ⟨-, rfl, rfl⟩ := first.unique (runs_pure () m s)
    exact rest
  | cons item items ih =>
    obtain ⟨passed, m', s', pass⟩ := exists_runs exec (body item) m s
    cases passed with
    | error e => cases (first.unique pass.bind_error).1
    | ok value => exact pass.bind (ih (first.rest pass))

end Act

/-! ## Loops that collect -/

section Collect

variable {α β κ ε : Type} (Shows : β → (κ → Prop) → Prop) (Adds : α → κ → Prop)

/-- **Loops that collect**: where every pass adds what belongs to its item, the loop adds what belongs
to the items. -/
theorem foldlM_collects {step : β → α → Except ε β} {items : List α}
    (congr : ∀ b P Q, (∀ k, P k ↔ Q k) → Shows b P → Shows b Q)
    (pass : ∀ b b' item P, item ∈ items → Shows b P → step b item = .ok b' →
      Shows b' fun k => P k ∨ Adds item k)
    {start final : β} {P : κ → Prop} (shown : Shows start P)
    (run : items.foldlM step start = .ok final) :
    Shows final fun k => P k ∨ ∃ item ∈ items, Adds item k := by
  induction items generalizing start P with
  | nil =>
    cases run
    exact congr _ _ _ (by simp) shown
  | cons item items ih =>
    rw [List.foldlM_cons, bind_eq_ok] at run
    obtain ⟨mid, first, rest⟩ := run
    have later := ih (fun b b' i P mem => pass b b' i P (List.mem_cons_of_mem _ mem))
      (pass start mid item P List.mem_cons_self shown first) rest
    exact congr _ _ _ (by simp [or_assoc]) later

/-- A loop that collects and cannot fail. -/
theorem foldl_collects {step : β → α → β} {items : List α}
    (congr : ∀ b P Q, (∀ k, P k ↔ Q k) → Shows b P → Shows b Q)
    (pass : ∀ b item P, Shows b P → Shows (step b item) fun k => P k ∨ Adds item k)
    {start : β} {P : κ → Prop} (shown : Shows start P) :
    Shows (items.foldl step start) fun k => P k ∨ ∃ item ∈ items, Adds item k := by
  induction items generalizing start P with
  | nil => exact congr _ _ _ (by simp) shown
  | cons item items ih =>
    exact congr _ _ _ (by simp [or_assoc]) (ih (pass start item P shown))

end Collect

namespace Table

variable {κ υ : Type} [Ord κ] [Std.TransOrd κ] [Std.LawfulEqOrd κ] [DecidableEq κ]

omit [Ord κ] [Std.TransOrd κ] [Std.LawfulEqOrd κ] in
theorem mem_of_lookup {entries : List (κ × υ)} {k : κ} {v : υ}
    (found : entries.lookup k = some v) : (k, v) ∈ entries := by
  obtain ⟨front, back, rfl, -⟩ := List.lookup_eq_some_iff.mp found
  simp

/-- Rewrite the entry of a key, if there is one. -/
def updateAt (f : υ → υ) (t : Table κ υ) (k : κ) : Table κ υ :=
  match t[k]? with
  | some v => t.insert k (f v)
  | none => t

/-- Rewrite the entries of the listed keys. -/
def updateAll (f : κ → υ → υ) (keys : List κ) (t : Table κ υ) : Table κ υ :=
  keys.foldl (fun t k => updateAt (f k) t k) t

theorem getElem?_updateAt (f : υ → υ) (t : Table κ υ) (k a : κ) :
    (updateAt f t k)[a]? = if k = a then (t[k]?).map f else t[a]? := by
  unfold updateAt
  cases entry : t[k]? with
  | none =>
    by_cases same : k = a
    · rw [if_pos same, ← same, entry, Option.map_none]
    · rw [if_neg same]
  | some v => rw [getElem?_insert, Option.map_some]

/-- **A lookup after rewriting.** -/
theorem getElem?_updateAll {f : κ → υ → υ} (idem : ∀ k v, f k (f k v) = f k v) (keys : List κ)
    (t : Table κ υ) (k : κ) :
    (updateAll f keys t)[k]? = if k ∈ keys then (t[k]?).map (f k) else t[k]? := by
  induction keys generalizing t with
  | nil => simp [updateAll]
  | cons key keys ih =>
    rw [updateAll, List.foldl_cons, ← updateAll, ih, getElem?_updateAt]
    by_cases same : key = k
    · subst same
      by_cases later : key ∈ keys <;> simp [later, Function.comp_def, idem]
    · have other : ¬ k = key := fun h => same h.symm
      simp [same, other]

/-- Add an entry unless its key is there. -/
def insertNew (t : Table κ υ) (entry : κ × υ) : Table κ υ :=
  match t[entry.1]? with
  | some _ => t
  | none => t.insert entry.1 entry.2

/-- Add the entries whose keys are not there; the first of several entries of one key counts. -/
def insertMissing (entries : List (κ × υ)) (t : Table κ υ) : Table κ υ :=
  entries.foldl insertNew t

theorem getElem?_insertNew (t : Table κ υ) (entry : κ × υ) (k : κ) :
    (insertNew t entry)[k]? = (t[k]?).or (if entry.1 = k then some entry.2 else none) := by
  unfold insertNew
  cases present : t[entry.1]? with
  | none =>
    rw [getElem?_insert]
    by_cases same : entry.1 = k
    · subst same
      simp [present]
    · simp [same]
  | some v =>
    by_cases same : entry.1 = k
    · subst same
      simp [present]
    · simp [same]

/-- **A lookup after adding.** -/
theorem getElem?_insertMissing (entries : List (κ × υ)) (t : Table κ υ) (k : κ) :
    (insertMissing entries t)[k]? = (t[k]?).or (entries.lookup k) := by
  induction entries generalizing t with
  | nil => simp [insertMissing]
  | cons entry entries ih =>
    rw [insertMissing, List.foldl_cons, ← insertMissing, ih, getElem?_insertNew, lookup_cons_eq,
      Option.or_assoc]
    by_cases same : entry.1 = k <;> simp [same]

end Table

end DomProtocol
