import Mathlib

/-! # Re-entrant code

A contract is called by code it does not know and calls code it does not know. **`Reach env call
depth`** is what such code can do to the world at a given call depth: moves of the environment and
completed calls of the contract, each of which may call out again, one level deeper. `Reach.locked`
and `Reach.invariant` are the two rules a proof about the contract needs. -/

namespace DomProtocol

variable {σ : Type}

/-- What unknown code can do at a call depth. `call R` relates the worlds before and after a completed
call of the contract whose own external calls do what `R` allows. -/
def Reach (env : σ → σ → Prop) (call : (σ → σ → Prop) → σ → σ → Prop) : Nat → σ → σ → Prop
  | 0 => Relation.ReflTransGen env
  | depth + 1 => Relation.ReflTransGen fun w w' => env w w' ∨ call (Reach env call depth) w w'

namespace Reach

variable {env : σ → σ → Prop} {call : (σ → σ → Prop) → σ → σ → Prop}

/-- **What every move keeps holds after any interleaving**, at any depth. -/
theorem invariant {P : σ → Prop} (moved : ∀ {w w'}, P w → env w w' → P w')
    (called : ∀ {depth w w'}, P w → call (Reach env call depth) w w' → P w') {depth : Nat} {w w' : σ}
    (start : P w) (reached : Reach env call depth w w') : P w' := by
  cases depth with
  | zero =>
    induction reached with
    | refl => exact start
    | tail _ move ih => exact moved ih move
  | succ depth =>
    induction reached with
    | refl => exact start
    | tail _ move ih =>
      rcases move with move | move
      · exact moved ih move
      · exact called ih move

/-- **While the contract is locked**, no call completes: only the environment moves. -/
theorem locked {L : σ → Prop} (kept : ∀ {w w'}, L w → env w w' → L w')
    (refuses : ∀ {depth w w'}, L w → ¬ call (Reach env call depth) w w') {depth : Nat} {w w' : σ}
    (isLocked : L w) (reached : Reach env call depth w w') :
    Relation.ReflTransGen env w w' := by
  have both := reached.invariant (P := fun v => Relation.ReflTransGen env w v ∧ L v)
    (fun ih move => ⟨ih.1.tail move, kept ih.2 move⟩)
    (fun ih move => (refuses ih.2 move).elim) ⟨.refl, isLocked⟩
  exact both.1

end Reach
end DomProtocol
