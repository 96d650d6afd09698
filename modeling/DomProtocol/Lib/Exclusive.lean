import Mathlib

/-! # Exclusive use of one-shot reservations

A history of **pledges**: a reservation is made for one quote in one scope, a quote is selected in a
scope, a scope is bound to a quote by consuming a reservation, and a reservation is released.

**`Exclusive h`** is what a ledger of such pledges is for, stated about histories alone. **`Allows h
c`** is the condition under which one more pledge keeps it (`Exclusive.snoc`), and **`Mirrors`**
says that three look-up functions show the state a history leads to, so that a ledger can check the
condition. -/

namespace DomProtocol

variable {R K Q S : Type}

/-- One pledge: `R` identifies reservations, `K` scopes, `Q` quotes and `S` holders. -/
inductive Pledge (R K Q S : Type) where
  | reserved (reservation : R) (scope : K) (quote : Q) (holder : S)
  | selected (scope : K) (quote : Q)
  | bound (scope : K) (quote : Q) (holder : S) (reservation : R)
  | released (reservation : R)

namespace Pledge

/-- The reservation a pledge makes. -/
def reserves : Pledge R K Q S → Option R
  | reserved r _ _ _ => some r
  | _ => none

/-- The scope a reservation is made in. -/
def backs : Pledge R K Q S → Option K
  | reserved _ k _ _ => some k
  | _ => none

/-- The scope a pledge selects for. -/
def selects : Pledge R K Q S → Option K
  | selected k _ => some k
  | _ => none

/-- The scope a pledge binds. -/
def binds : Pledge R K Q S → Option K
  | bound k _ _ _ => some k
  | _ => none

/-- The reservation a pledge spends, by binding or by release. -/
def spends : Pledge R K Q S → Option R
  | bound _ _ _ r => some r
  | released r => some r
  | _ => none

end Pledge

open Pledge

/-- **Exclusive histories.** -/
structure Exclusive (h : List (Pledge R K Q S)) : Prop where
  selected_once : (h.filterMap selects).Nodup
  bound_once : (h.filterMap binds).Nodup
  reserved_once : (h.filterMap reserves).Nodup
  spent_once : (h.filterMap spends).Nodup
  bound_backed : ∀ before k q s r after, h = before ++ .bound k q s r :: after →
    .selected k q ∈ before ∧ .reserved r k q s ∈ before ∧ r ∉ before.filterMap spends
  released_reserved : ∀ before r after, h = before ++ .released r :: after →
    r ∈ before.filterMap reserves

/-- When a pledge may follow a history. -/
def Allows (h : List (Pledge R K Q S)) : Pledge R K Q S → Prop
  | .reserved r _ _ _ => r ∉ h.filterMap reserves
  | .selected k _ => k ∉ h.filterMap selects
  | .bound k q s r => k ∉ h.filterMap binds ∧ .selected k q ∈ h ∧ .reserved r k q s ∈ h ∧
      r ∉ h.filterMap spends
  | .released r => r ∈ h.filterMap reserves ∧ r ∉ h.filterMap spends

/-- An empty history is exclusive. -/
theorem Exclusive.nil : Exclusive ([] : List (Pledge R K Q S)) where
  selected_once := List.nodup_nil
  bound_once := List.nodup_nil
  reserved_once := List.nodup_nil
  spent_once := List.nodup_nil
  bound_backed before k q s r after split := by simp at split
  released_reserved before r after split := by simp at split

/-- Adding an item keeps a projection free of repetitions if its key is new. -/
theorem nodup_filterMap_snoc {α β : Type} {f : α → Option β} {h : List α} {c : α}
    (nodup : (h.filterMap f).Nodup) (new : ∀ b, f c = some b → b ∉ h.filterMap f) :
    ((h ++ [c]).filterMap f).Nodup := by
  rw [List.filterMap_append]
  cases hc : f c with
  | none => simpa [hc] using nodup
  | some b =>
    rw [List.filterMap_cons_some hc, List.filterMap_nil]
    exact List.nodup_append_comm.mp (List.nodup_cons.mpr ⟨new b hc, nodup⟩)

/-- An item inside a list with one more item is that item, or inside the list already. -/
theorem split_snoc {α : Type} {h before after : List α} {c x : α}
    (split : h ++ [c] = before ++ x :: after) :
    (before = h ∧ x = c) ∨ ∃ rest, h = before ++ x :: rest := by
  induction after using List.reverseRecOn with
  | nil =>
    obtain ⟨rfl, same⟩ := List.append_inj' split rfl
    exact .inl ⟨rfl, (List.singleton_inj.mp same).symm⟩
  | append_singleton rest last _ =>
    rw [← List.cons_append, ← List.append_assoc] at split
    exact .inr ⟨rest, (List.append_inj' split rfl).1⟩

/-- **One more allowed pledge** keeps a history exclusive. -/
theorem Exclusive.snoc {h : List (Pledge R K Q S)} {c : Pledge R K Q S}
    (exclusive : Exclusive h) (allowed : Allows h c) : Exclusive (h ++ [c]) where
  selected_once := nodup_filterMap_snoc exclusive.selected_once fun k hk => by
    cases c <;> cases hk
    exact allowed
  bound_once := nodup_filterMap_snoc exclusive.bound_once fun k hk => by
    cases c <;> cases hk
    exact allowed.1
  reserved_once := nodup_filterMap_snoc exclusive.reserved_once fun r hr => by
    cases c <;> cases hr
    exact allowed
  spent_once := nodup_filterMap_snoc exclusive.spent_once fun r hr => by
    cases c <;> cases hr
    · exact allowed.2.2.2
    · exact allowed.2
  bound_backed before k q s r after split := by
    rcases split_snoc split with ⟨rfl, rfl⟩ | ⟨rest, earlier⟩
    · exact allowed.2
    · exact exclusive.bound_backed before k q s r rest earlier
  released_reserved before r after split := by
    rcases split_snoc split with ⟨rfl, rfl⟩ | ⟨rest, earlier⟩
    · exact allowed.1
    · exact exclusive.released_reserved before r rest earlier

/-! ## Looking a history up -/

section Membership

variable {h : List (Pledge R K Q S)}

/-- A pledge is of one of the four kinds. -/
theorem exists_pledge {p : Pledge R K Q S → Prop} : (∃ c, p c) ↔
    (∃ r k q s, p (.reserved r k q s)) ∨ (∃ k q, p (.selected k q)) ∨
      (∃ k q s r, p (.bound k q s r)) ∨ ∃ r, p (.released r) := by
  constructor
  · rintro ⟨_ | _ | _ | _, hc⟩
    · exact .inl ⟨_, _, _, _, hc⟩
    · exact .inr (.inl ⟨_, _, hc⟩)
    · exact .inr (.inr (.inl ⟨_, _, _, _, hc⟩))
    · exact .inr (.inr (.inr ⟨_, hc⟩))
  · rintro (⟨_, _, _, _, hc⟩ | ⟨_, _, hc⟩ | ⟨_, _, _, _, hc⟩ | ⟨_, hc⟩) <;> exact ⟨_, hc⟩

theorem mem_reserves {r : R} : r ∈ h.filterMap reserves ↔ ∃ k q s, .reserved r k q s ∈ h := by
  simp [exists_pledge, reserves]

theorem mem_backs {k : K} : k ∈ h.filterMap backs ↔ ∃ r q s, .reserved r k q s ∈ h := by
  simp [exists_pledge, backs]

theorem mem_selects {k : K} : k ∈ h.filterMap selects ↔ ∃ q, .selected k q ∈ h := by
  simp [exists_pledge, selects]

theorem mem_binds {k : K} : k ∈ h.filterMap binds ↔ ∃ q s r, .bound k q s r ∈ h := by
  simp [exists_pledge, binds]

theorem mem_spends {r : R} : r ∈ h.filterMap spends ↔
    (∃ k q s, .bound k q s r ∈ h) ∨ .released r ∈ h := by
  simp [exists_pledge, spends]

end Membership

/-- What a ledger shows of one reservation. -/
inductive Holding (K Q S : Type) where
  | active (scope : K) (quote : Q) (holder : S)
  | bound
  | spent

/-- **Three look-up functions mirror a history**: the state of every reservation, the selection and
the binding of every scope are those the history made. -/
structure Mirrors (reservation : R → Option (Holding K Q S)) (selection : K → Option Q)
    (binding : K → Option (Q × S × R)) (h : List (Pledge R K Q S)) : Prop where
  unused : ∀ r, reservation r = none ↔ ¬ ∃ k q s, .reserved r k q s ∈ h
  active : ∀ r k q s, reservation r = some (.active k q s) ↔
    .reserved r k q s ∈ h ∧ (¬ ∃ k q s, .bound k q s r ∈ h) ∧ .released r ∉ h
  bound : ∀ r, reservation r = some .bound ↔ ∃ k q s, .bound k q s r ∈ h
  spent : ∀ r, reservation r = some .spent ↔ .released r ∈ h
  selection : ∀ k q, selection k = some q ↔ .selected k q ∈ h
  binding : ∀ k q s r, binding k = some (q, s, r) ↔ .bound k q s r ∈ h

namespace Mirrors

variable {reservation : R → Option (Holding K Q S)} {selection : K → Option Q}
  {binding : K → Option (Q × S × R)} {h : List (Pledge R K Q S)}

variable {r : R} {k : K} {q : Q} {s : S}

theorem nil : Mirrors (fun _ => none) (fun _ => none) (fun _ => none)
    ([] : List (Pledge R K Q S)) := by
  constructor <;> simp

section

variable (mirrors : Mirrors reservation selection binding h)
include mirrors

/-- An unused identifier may be reserved. -/
theorem allows_reserved (k : K) (q : Q)
    (s : S) (free : reservation r = none) : Allows h (.reserved r k q s) :=
  mem_reserves.not.mpr ((mirrors.unused r).mp free)

/-- A scope without a selection may be selected for. -/
theorem allows_selected (q : Q) (free : selection k = none) : Allows h (.selected k q) := by
  intro found
  obtain ⟨q', found⟩ := mem_selects.mp found
  rw [(mirrors.selection k q').mpr found] at free
  cases free

/-- A scope without a binding may be bound to the selected quote by an active reservation of it. -/
theorem allows_bound (free : binding k = none) (selected : selection k = some q)
    (held : reservation r = some (.active k q s)) : Allows h (.bound k q s r) := by
  obtain ⟨made, unbound, unreleased⟩ := (mirrors.active r k q s).mp held
  refine ⟨fun found => ?_, (mirrors.selection k q).mp selected, made, fun found => ?_⟩
  · obtain ⟨q', s', r', found⟩ := mem_binds.mp found
    rw [(mirrors.binding k q' s' r').mpr found] at free
    cases free
  · exact (mem_spends.mp found).elim unbound unreleased

/-- An active reservation may be released. -/
theorem allows_released (held : reservation r = some (.active k q s)) : Allows h (.released r) := by
  obtain ⟨made, unbound, unreleased⟩ := (mirrors.active r k q s).mp held
  exact ⟨mem_reserves.mpr ⟨k, q, s, made⟩,
    fun found => (mem_spends.mp found).elim unbound unreleased⟩

end

variable [DecidableEq R] [DecidableEq K]

variable (mirrors : Mirrors reservation selection binding h)
include mirrors

omit [DecidableEq K] in
/-- Making a reservation under an unused identifier. -/
theorem reserve (k : K) (q : Q) (s : S) (free : reservation r = none) :
    Mirrors (Function.update reservation r (some (.active k q s))) selection binding
      (h ++ [.reserved r k q s]) := by
  have unused := (mirrors.unused r).mp free
  have unbound : ¬ ∃ k q s, Pledge.bound k q s r ∈ h :=
    (mirrors.bound r).not.mp (by simp [free])
  have unreleased : Pledge.released r ∉ h := (mirrors.spent r).not.mp (by simp [free])
  obtain ⟨hunused, hactive, hbound, hspent, hselection, hbinding⟩ := mirrors
  constructor <;> grind

omit [DecidableEq R] in
/-- Selecting a quote in a scope without a selection. -/
theorem select (q : Q) (free : selection k = none) :
    Mirrors reservation (Function.update selection k (some q)) binding (h ++ [.selected k q]) := by
  obtain ⟨hunused, hactive, hbound, hspent, hselection, hbinding⟩ := mirrors
  constructor <;> grind

/-- Binding a scope without a binding, which spends an active reservation. -/
theorem bind {k' : K} {q' : Q}
    {s' : S} (free : binding k = none) (held : reservation r = some (.active k' q' s')) :
    Mirrors (Function.update reservation r (some .bound)) selection
      (Function.update binding k (some (q, s, r))) (h ++ [.bound k q s r]) := by
  obtain ⟨made, unbound, unreleased⟩ := (mirrors.active r k' q' s').mp held
  obtain ⟨hunused, hactive, hbound, hspent, hselection, hbinding⟩ := mirrors
  constructor <;> grind

omit [DecidableEq K] in
/-- Releasing an active reservation. -/
theorem release (held : reservation r = some (.active k q s)) :
    Mirrors (Function.update reservation r (some .spent)) selection binding
      (h ++ [.released r]) := by
  obtain ⟨made, unbound, unreleased⟩ := (mirrors.active r k q s).mp held
  obtain ⟨hunused, hactive, hbound, hspent, hselection, hbinding⟩ := mirrors
  constructor <;> grind

end Mirrors

variable {h : List (Pledge R K Q S)}

/-! ## How long a history can be -/

/-- Every selected scope has a reservation. -/
def Backed (h : List (Pledge R K Q S)) : Prop :=
  h.filterMap selects ⊆ h.filterMap backs

/-- One more pledge keeps selections backed if it is no selection, or a backed one. -/
theorem Backed.snoc {c : Pledge R K Q S} (backed : Backed h)
    (new : ∀ k, c.selects = some k → k ∈ h.filterMap backs ∨ c.backs = some k) :
    Backed (h ++ [c]) := by
  intro k found
  simp only [List.filterMap_append, List.mem_append, List.mem_filterMap (l := [c]),
    List.mem_singleton, exists_eq_left] at found ⊢
  rcases found with found | found
  · exact .inl (backed found)
  · exact new k found

/-- A history consists of its reservations, its selections and what spends a reservation. -/
theorem length_eq_reserves_add (h : List (Pledge R K Q S)) :
    h.length = (h.filterMap reserves).length + (h.filterMap selects).length +
      (h.filterMap spends).length := by
  induction h with
  | nil => rfl
  | cons c h ih =>
    cases c <;> simp only [List.length_cons, List.filterMap_cons, reserves, selects, spends] <;> omega

theorem length_backs (h : List (Pledge R K Q S)) :
    (h.filterMap backs).length = (h.filterMap reserves).length := by
  induction h with
  | nil => rfl
  | cons c h ih => cases c <;> simp [List.filterMap_cons, backs, reserves, ih]

/-- Only what was reserved is spent. -/
theorem Exclusive.spends_subset (exclusive : Exclusive h) :
    h.filterMap spends ⊆ h.filterMap reserves := by
  intro r spent
  rcases mem_spends.mp spent with ⟨k, q, s, found⟩ | found
  · obtain ⟨before, after, rfl⟩ := List.append_of_mem found
    have backed := (exclusive.bound_backed before k q s r after rfl).2.1
    exact mem_reserves.mpr ⟨k, q, s, List.mem_append_left _ backed⟩
  · obtain ⟨before, after, rfl⟩ := List.append_of_mem found
    have made := exclusive.released_reserved before r after rfl
    rw [List.filterMap_append]
    exact List.mem_append_left _ made

/-- **A history is at most three times as long as its list of reservations** when selections need a
reservation in their scope. -/
theorem Exclusive.length_le (exclusive : Exclusive h)
    (backed : Backed h) : h.length ≤ 3 * (h.filterMap reserves).length := by
  have spent := (exclusive.spent_once.subperm exclusive.spends_subset).length_le
  have selected := (exclusive.selected_once.subperm backed).length_le
  rw [length_backs] at selected
  rw [length_eq_reserves_add h]
  omega

end DomProtocol
