import Mathlib

/-! # Timelines of attested claims

An observer admits claims one after another, each of which must **follow** the last one. The first
claim that contradicts the last one is kept as a conflict and ends the timeline.

A **`Timeline α`** is what has been admitted, and **`Grows R`** one admission: it keeps the chain,
only appends to what is recorded, and never happens on an ended timeline. -/

namespace DomProtocol

variable {α : Type}

/-- **A timeline of claims.** -/
inductive Timeline (α : Type) where
  | fresh
  | live (older : List α) (last : α)
  | dead (older : List α) (last conflict : α)

namespace Timeline

/-- The admitted claims, oldest first. -/
def admitted : Timeline α → List α
  | fresh => []
  | live older last => older ++ [last]
  | dead older last _ => older ++ [last]

/-- Everything recorded, in order. -/
def rows : Timeline α → List α
  | fresh => []
  | live older last => older ++ [last]
  | dead older last conflict => older ++ [last, conflict]

/-- Whether a conflict ended the timeline. -/
def IsDead : Timeline α → Prop
  | dead _ _ _ => True
  | _ => False

/-- Every admitted claim follows the one before it. -/
def Chained (R : α → α → Prop) (t : Timeline α) : Prop := List.IsChain R t.admitted

/-- **One admission.** -/
inductive Grows (R : α → α → Prop) : Timeline α → Timeline α → Prop where
  | first (claim : α) : Grows R fresh (live [] claim)
  | extend (older : List α) (last claim : α) (follows : R last claim) :
      Grows R (live older last) (live (older ++ [last]) claim)
  | refute (older : List α) (last conflict : α) :
      Grows R (live older last) (dead older last conflict)

variable {R : α → α → Prop} {t t' : Timeline α}

theorem Grows.alive (grows : Grows R t t') : ¬ t.IsDead := by
  cases grows <;> exact id

theorem Grows.chained (grows : Grows R t t') (chained : t.Chained R) : t'.Chained R := by
  cases grows with
  | first claim => exact List.isChain_singleton claim
  | extend older last claim follows =>
    refine List.IsChain.append chained (List.isChain_singleton claim) ?_
    intro x hx y hy
    simp only [List.getLast?_append, List.getLast?_singleton, Option.some_or, Option.mem_def,
      Option.some.injEq, List.head?_cons] at hx hy
    rw [← hx, ← hy]
    exact follows
  | refute older last conflict => exact chained

theorem Grows.rows_prefix (grows : Grows R t t') : t.rows <+: t'.rows := by
  cases grows with
  | first claim => exact List.nil_prefix
  | extend older last claim _ => exact List.prefix_append _ _
  | refute older last conflict => exact ⟨[conflict], by simp [rows]⟩

/-- Any number of admissions. -/
abbrev Grown (R : α → α → Prop) : Timeline α → Timeline α → Prop := Relation.ReflTransGen (Grows R)

/-- **A contradiction is final.** -/
theorem eq_of_grown_of_dead (grown : Grown R t t') (dead : t.IsDead) : t' = t := by
  cases Relation.ReflTransGen.cases_head grown with
  | inl same => exact same.symm
  | inr later =>
    obtain ⟨_, grows, -⟩ := later
    exact absurd dead grows.alive

/-- What is recorded stays recorded. -/
theorem rows_prefix_of_grown (grown : Grown R t t') : t.rows <+: t'.rows := by
  induction grown with
  | refl => exact List.prefix_rfl
  | tail _ grows ih => exact ih.trans grows.rows_prefix

end Timeline

end DomProtocol
