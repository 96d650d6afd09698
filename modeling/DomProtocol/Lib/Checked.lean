import Mathlib

/-! # Fallible computations

A fallible function returns `Except ε α`. Each helper has one lemma that says when it succeeds:

* **`rejectIf c e`** is an early return of the error `e`, and **`require c e`** the opposite check,
  which hands on the proof that `c` holds;
* **`okOr`** turns an absent value into an error;
* **`forEach`** is a loop whose body may fail;
* **`checkedAdd`**, **`checkedSub`** and **`checkedMul`** report overflow, `saturatingSub` clamps.

A success of a composite function is taken apart with `bind_eq_ok` and these lemmas. -/

namespace DomProtocol

variable {ε α β γ : Type}

variable {x : Except ε α} {f : α → Except ε β} {a : α} {c : Prop} {e : ε} {u : Unit}
  {items : List α} {step : β → α → Except ε β} {start final : β} {results : List β}
  {Allowed : α → Prop} {b : UInt64}

/-! ## Sequencing -/

/-- **A sequence succeeds exactly when both parts do.** -/
theorem bind_eq_ok {b : β} : (x >>= f) = .ok b ↔ ∃ a, x = .ok a ∧ f a = .ok b := by
  cases x with
  | error e => simp [Bind.bind, Except.bind]
  | ok a => simp [Bind.bind, Except.bind]

/-- A check in front of a computation. -/
theorem check_bind_eq_ok {check : Except ε Unit} {next : Unit → Except ε α} :
    (check >>= next) = .ok a ↔ check = .ok () ∧ next () = .ok a := by
  cases check <;> simp [Bind.bind, Except.bind]

@[simp] theorem ok_bind (a : α) (f : α → Except ε β) : (Except.ok a >>= f) = f a := rfl

theorem pure_eq_ok {b : α} : (pure a : Except ε α) = .ok b ↔ a = b := by
  simp [Pure.pure, Except.pure]

/-! ## Early returns -/

/-- Return the error `e` if the condition holds. -/
def rejectIf (c : Prop) [Decidable c] (e : ε) : Except ε Unit :=
  if c then .error e else .ok ()

theorem rejectIf_eq_ok [Decidable c] : rejectIf c e = .ok u ↔ ¬ c := by
  by_cases h : c <;> simp [rejectIf, h]

@[simp] theorem rejectIf_of_not [Decidable c] (e : ε) (h : ¬ c) : rejectIf c e = .ok () := if_neg h

@[simp] theorem rejectIf_of [Decidable c] (e : ε) (h : c) : rejectIf c e = .error e := if_pos h

/-- A proof that the condition holds, or the error `e` if it does not. -/
def require (c : Prop) [Decidable c] (e : ε) : Except ε (PLift c) :=
  if h : c then .ok ⟨h⟩ else .error e

@[simp] theorem require_of [Decidable c] (e : ε) (h : c) : require c e = .ok ⟨h⟩ := dif_pos h

/-- The value of an option, or the error `e` if there is none. -/
def okOr (e : ε) : Option α → Except ε α
  | some a => .ok a
  | none => .error e

theorem okOr_eq_ok {o : Option α} : okOr e o = .ok a ↔ o = some a := by
  cases o <;> simp [okOr]

@[simp] theorem okOr_some (e : ε) (a : α) : okOr e (some a) = .ok a := rfl

/-- The value of a fallible computation, with its error replaced. -/
def mapError (f : ε → γ) : Except ε α → Except γ α
  | .ok a => .ok a
  | .error e => .error (f e)

theorem mapError_eq_ok {f : ε → γ} : mapError f x = .ok a ↔ x = .ok a := by
  cases x <;> simp [mapError]

/-- A computation with a known value. -/
theorem eq_ok_of_toOption (h : x.toOption = some a) : x = .ok a := by
  cases x with
  | error e => cases h
  | ok b => cases h; rfl

/-! ## Loops -/

theorem mem_snoc {item last : α} : item ∈ items ++ [last] ↔ item ∈ items ∨ item = last := by
  rw [List.mem_append, List.mem_singleton]

/-- Run the body on every item in order, stopping at the first error. -/
def forEach (body : α → Except ε Unit) : List α → Except ε Unit
  | [] => .ok ()
  | item :: items => do
    body item
    forEach body items

/-- **A checking loop succeeds exactly when every item passes.** -/
theorem forEach_eq_ok {body : α → Except ε Unit} :
    forEach body items = .ok u ↔ ∀ item ∈ items, body item = .ok () := by
  induction items with
  | nil => simp [forEach]
  | cons item items ih =>
    rw [forEach, check_bind_eq_ok, List.forall_mem_cons, ih]

/-- Run the body on every item with its index, stopping at the first error. -/
def forEachIdx (body : Nat → α → Except ε Unit) (items : List α) : Except ε Unit :=
  forEach (fun indexed => body indexed.2 indexed.1) items.zipIdx

theorem forEachIdx_eq_ok {body : Nat → α → Except ε Unit} :
    forEachIdx body items = .ok u ↔
      ∀ i item, items[i]? = some item → body i item = .ok () := by
  rw [forEachIdx, forEach_eq_ok]
  constructor
  · intro h i item hi
    exact h (item, i) (List.mem_zipIdx_iff_getElem?.mpr hi)
  · rintro h ⟨item, i⟩ hmem
    exact h i item (List.mem_zipIdx_iff_getElem?.mp hmem)

/-- **Loop invariant.** What one iteration preserves, the loop preserves. -/
theorem foldlM_invariant (Inv : β → Prop)
    (preserved : ∀ acc acc' item, item ∈ items → Inv acc → step acc item = .ok acc' → Inv acc')
    (init : Inv start) (run : items.foldlM step start = .ok final) :
    Inv final := by
  induction items generalizing start with
  | nil =>
    cases run
    exact init
  | cons item items ih =>
    rw [List.foldlM_cons, bind_eq_ok] at run
    obtain ⟨mid, hstep, hrest⟩ := run
    exact ih (fun acc acc' i hi => preserved acc acc' i (List.mem_cons_of_mem _ hi))
      (preserved start mid item List.mem_cons_self init hstep) hrest

/-- Every iteration of a loop that succeeds has succeeded. -/
theorem foldlM_each (run : items.foldlM step start = .ok final) :
    ∀ item ∈ items, ∃ acc acc', step acc item = .ok acc' := by
  induction items generalizing start with
  | nil => simp
  | cons item items ih =>
    rw [List.foldlM_cons, bind_eq_ok] at run
    obtain ⟨mid, hstep, hrest⟩ := run
    exact List.forall_mem_cons.mpr ⟨⟨start, mid, hstep⟩, ih hrest⟩

/-- **A mapping loop succeeds exactly when every item does.** -/
theorem mapM_eq_ok :
    items.mapM f = .ok results ↔
      List.Forall₂ (fun item result => f item = .ok result) items results := by
  induction items generalizing results with
  | nil =>
    rw [List.mapM_nil, pure_eq_ok, List.forall₂_nil_left_iff, eq_comm]
  | cons item items ih =>
    simp only [List.mapM_cons, bind_eq_ok, pure_eq_ok, List.forall₂_cons_left_iff, ih]
    constructor
    · rintro ⟨result, hitem, rest, hrest, rfl⟩
      exact ⟨result, rest, hitem, hrest, rfl⟩
    · rintro ⟨result, rest, hitem, hrest, rfl⟩
      exact ⟨result, hitem, rest, hrest, rfl⟩

/-- Every item of the first list has a partner in the second. -/
theorem exists_of_forall₂ {R : α → β → Prop}
    (h : List.Forall₂ R items results) {item : α} (mem : item ∈ items) :
    ∃ result ∈ results, R item result := by
  induction h with
  | nil => cases mem
  | cons first _ ih =>
    rcases List.mem_cons.mp mem with rfl | mem
    · exact ⟨_, List.mem_cons_self, first⟩
    · obtain ⟨result, hresult, related⟩ := ih mem
      exact ⟨result, List.mem_cons_of_mem _ hresult, related⟩

/-- A mapping loop whose items succeed under a condition, each with a known result. -/
theorem mapM_eq_ok_map {g : α → β}
    (spec : ∀ item result, f item = .ok result ↔ Allowed item ∧ result = g item) :
    items.mapM f = .ok results ↔ (∀ item ∈ items, Allowed item) ∧ results = items.map g := by
  induction items generalizing results with
  | nil => rw [List.mapM_nil, pure_eq_ok, eq_comm]; simp
  | cons item items ih =>
    simp only [List.mapM_cons, bind_eq_ok, pure_eq_ok, spec, ih, List.forall_mem_cons,
      List.map_cons]
    constructor
    · rintro ⟨_, ⟨hitem, rfl⟩, _, ⟨hitems, rfl⟩, rfl⟩
      exact ⟨⟨hitem, hitems⟩, rfl⟩
    · rintro ⟨⟨hitem, hitems⟩, rfl⟩
      exact ⟨_, ⟨hitem, rfl⟩, _, ⟨hitems, rfl⟩, rfl⟩

/-- A loop whose iterations succeed under a condition on the item, each with a known result. -/
theorem foldlM_eq_ok_foldl {next : β → α → β}
    (spec : ∀ item ∈ items, ∀ acc acc', step acc item = .ok acc' ↔
      Allowed item ∧ acc' = next acc item) :
    items.foldlM step start = .ok final ↔
      (∀ item ∈ items, Allowed item) ∧ final = items.foldl next start := by
  induction items generalizing start with
  | nil => rw [List.foldlM_nil, pure_eq_ok, eq_comm]; simp
  | cons item items ih =>
    have hrest : ∀ acc, items.foldlM step acc = .ok final ↔ _ := fun acc =>
      ih fun i hi => spec i (List.mem_cons_of_mem _ hi)
    simp only [List.foldlM_cons, bind_eq_ok, spec item List.mem_cons_self, List.forall_mem_cons,
      List.foldl_cons]
    constructor
    · rintro ⟨_, ⟨hitem, rfl⟩, hrun⟩
      obtain ⟨hitems, heq⟩ := (hrest _).mp hrun
      exact ⟨⟨hitem, hitems⟩, heq⟩
    · rintro ⟨⟨hitem, hitems⟩, heq⟩
      exact ⟨_, ⟨hitem, rfl⟩, (hrest _).mpr ⟨hitems, heq⟩⟩

/-- A mapping loop whose every item succeeds, succeeds. -/
theorem exists_mapM_eq_ok (each : ∀ item ∈ items, ∃ result, f item = .ok result) :
    ∃ results, items.mapM f = .ok results := by
  induction items with
  | nil => exact ⟨[], rfl⟩
  | cons item items ih =>
    obtain ⟨result, hresult⟩ := each item List.mem_cons_self
    obtain ⟨results, hresults⟩ := ih fun i hi => each i (List.mem_cons_of_mem _ hi)
    exact ⟨result :: results, by rw [List.mapM_cons, hresult, ok_bind, hresults, ok_bind]; rfl⟩

/-- The results of a mapping loop are those of its items. -/
theorem mem_of_mapM_eq_ok (run : items.mapM f = .ok results) {result : β} :
    result ∈ results ↔ ∃ item ∈ items, f item = .ok result := by
  induction items generalizing results with
  | nil =>
    cases run
    simp
  | cons item items ih =>
    simp only [List.mapM_cons, bind_eq_ok, pure_eq_ok] at run
    obtain ⟨first, hfirst, rest, hrest, rfl⟩ := run
    simp only [List.mem_cons, ih hrest, exists_eq_or_imp, hfirst, Except.ok.injEq]
    exact or_congr_left eq_comm

/-! ## Machine integers -/

/-- The sum of two 64-bit numbers, if it fits. -/
def checkedAdd (a b : UInt64) : Option UInt64 :=
  if a.toNat + b.toNat < 2 ^ 64 then some (a + b) else none

/-- The difference of two 64-bit numbers, if it is not negative. -/
def checkedSub (a b : UInt64) : Option UInt64 :=
  if b.toNat ≤ a.toNat then some (a - b) else none

/-- The product of two 64-bit numbers, if it fits. -/
def checkedMul (a b : UInt64) : Option UInt64 :=
  if a.toNat * b.toNat < 2 ^ 64 then some (a * b) else none

/-- The difference of two 64-bit numbers, or zero. -/
def saturatingSub (a b : UInt64) : UInt64 :=
  if b.toNat ≤ a.toNat then a - b else 0

theorem checkedAdd_eq_some {a c : UInt64} :
    checkedAdd a b = some c ↔ c.toNat = a.toNat + b.toNat := by
  unfold checkedAdd
  split
  · rename_i h
    rw [Option.some.injEq, ← UInt64.toNat_inj, UInt64.toNat_add, Nat.mod_eq_of_lt h]
    exact eq_comm
  · have := c.toNat_lt
    constructor
    · simp
    · omega

theorem checkedAdd_eq_none {a : UInt64} : checkedAdd a b = none ↔ 2 ^ 64 ≤ a.toNat + b.toNat := by
  unfold checkedAdd
  split <;> simp <;> omega

theorem checkedSub_eq_some {a c : UInt64} :
    checkedSub a b = some c ↔ a.toNat = b.toNat + c.toNat := by
  unfold checkedSub
  split
  · rename_i h
    have ha := a.toNat_lt
    rw [Option.some.injEq, ← UInt64.toNat_inj, UInt64.toNat_sub_of_le _ _ (UInt64.le_iff_toNat_le.mpr h)]
    omega
  · constructor
    · simp
    · omega

end DomProtocol
