import Mathlib

/-! # Discrete logarithms and Schnorr proofs

Facts about multiples `n • g` of one element of a commutative group.

* **`Generates g q`**: `g` has order `q` and every element is a multiple of it. Then every element
  has exactly one **logarithm** below `q`, and logarithms add up modulo `q` (`nsmul_eq_iff`).
* **`response`** is the answer of a Schnorr prover who knows a logarithm of the statement. The
  verifier's equation holds for it (`nsmul_response`), and says nothing of the size of the
  logarithm. -/

namespace DomProtocol.Schnorr

variable {P : Type} [AddCommGroup P] {g : P} {q : ℕ}

/-- **A generator of known order.** -/
structure Generates (g : P) (q : ℕ) : Prop where
  order : addOrderOf g = q
  pos : 0 < q
  covers : ∀ p : P, ∃ n : ℕ, n • g = p

namespace Generates

variable (base : Generates g q)
include base

/-- **Multiples are equal exactly when the factors agree modulo the order.** -/
theorem nsmul_eq_iff {m n : ℕ} : m • g = n • g ↔ m % q = n % q := by
  rw [nsmul_eq_nsmul_iff_modEq, base.order]
  exact Iff.rfl

/-- Factors may be reduced modulo the order. -/
theorem mod_nsmul (n : ℕ) : (n % q) • g = n • g :=
  base.nsmul_eq_iff.mpr (Nat.mod_mod _ _)

/-- Only multiples of the order are zero. -/
theorem nsmul_eq_zero_iff {n : ℕ} (small : n < q) : n • g = 0 ↔ n = 0 := by
  rw [← zero_nsmul g, base.nsmul_eq_iff, Nat.zero_mod, Nat.mod_eq_of_lt small]

/-- **Every element has a logarithm** below the order. -/
theorem exists_log (p : P) : ∃ d < q, d • g = p := by
  obtain ⟨n, rfl⟩ := base.covers p
  exact ⟨n % q, Nat.mod_lt _ base.pos, base.mod_nsmul n⟩

/-- **Logarithms below the order are unique.** -/
theorem log_unique {a b : ℕ} (ha : a < q) (hb : b < q) (same : a • g = b • g) : a = b := by
  have := base.nsmul_eq_iff.mp same
  rwa [Nat.mod_eq_of_lt ha, Nat.mod_eq_of_lt hb] at this

end Generates

/-- The response of a prover who knows the logarithm `x`, under nonce `r` and challenge `e`. -/
def response (q r e x : ℕ) : ℕ := (r + e * x) % q

/-- **Completeness**: the verifier's equation holds for the response. -/
theorem nsmul_response (base : Generates g q) (r e x : ℕ) :
    response q r e x • g = r • g + e • x • g := by
  rw [response, base.mod_nsmul, add_nsmul, mul_nsmul']

end DomProtocol.Schnorr
