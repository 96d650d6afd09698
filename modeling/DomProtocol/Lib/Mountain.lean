import Mathlib

/-! # Mountain ranges

A **mountain** is a perfect binary tree with values at its leaves, and a **range** a sequence of
mountains from left to right. Appending a mountain on the right merges it with its left neighbour as
long as the two are equally high (`carry`): this is the increment of a binary counter, and a range
built that way is **`Descending`**, with one mountain for every binary digit one of its number of
leaves.

The nodes of a range are numbered from 1 in postorder. `nodesFrom` lists the values of all nodes,
which may depend on their positions, and `peaksFrom` those of the summits. -/

namespace DomProtocol

variable {α β : Type}

/-! ## Mountains -/

/-- A perfect binary tree of a given height. -/
inductive Mountain (α : Type) : Nat → Type where
  | leaf (value : α) : Mountain α 0
  | node {height : Nat} (left right : Mountain α height) : Mountain α (height + 1)

/-- The number of nodes of a mountain. -/
def mountainSize (height : Nat) : Nat := 2 ^ (height + 1) - 1

theorem mountainSize_succ (height : Nat) :
    mountainSize (height + 1) = mountainSize height + mountainSize height + 1 := by
  have := Nat.two_pow_pos (height + 1)
  simp only [mountainSize, pow_succ] at *
  omega

theorem mountainSize_add_one (height : Nat) : mountainSize height + 1 = 2 * 2 ^ height := by
  have := Nat.two_pow_pos height
  rw [mountainSize, pow_succ]
  omega

namespace Mountain

variable {height : Nat}

/-- The values at the leaves, from left to right. -/
def leaves : {height : Nat} → Mountain α height → List α
  | _, leaf value => [value]
  | _, node left right => left.leaves ++ right.leaves

@[simp] theorem length_leaves (mountain : Mountain α height) :
    mountain.leaves.length = 2 ^ height := by
  induction mountain with
  | leaf value => rfl
  | node left right ihl ihr =>
    rw [leaves, List.length_append, ihl, ihr, pow_succ]
    ring

variable (leafValue : Nat → α → β) (nodeValue : Nat → β → β → β)

/-- The value of the summit of a mountain whose nodes follow the first `offset` positions. -/
def peak : {height : Nat} → Nat → Mountain α height → β
  | _, offset, leaf value => leafValue (offset + 1) value
  | height + 1, offset, node left right =>
    nodeValue (offset + mountainSize (height + 1)) (peak offset left)
      (peak (offset + mountainSize height) right)

/-- The values of all nodes of a mountain, in postorder. -/
def postorder : {height : Nat} → Nat → Mountain α height → List β
  | _, offset, leaf value => [peak leafValue nodeValue offset (leaf value)]
  | height + 1, offset, node left right =>
    postorder offset left ++ postorder (offset + mountainSize height) right ++
      [peak leafValue nodeValue offset (node left right)]

@[simp] theorem length_postorder (offset : Nat) (mountain : Mountain α height) :
    (mountain.postorder leafValue nodeValue offset).length = mountainSize height := by
  induction mountain generalizing offset with
  | leaf value => rfl
  | node left right ihl ihr =>
    rw [postorder, List.length_append, List.length_append, ihl, ihr, mountainSize_succ]
    rfl

/-- The summit comes last. -/
theorem exists_postorder_eq (offset : Nat) (mountain : Mountain α height) :
    ∃ below, mountain.postorder leafValue nodeValue offset =
      below ++ [mountain.peak leafValue nodeValue offset] := by
  cases mountain with
  | leaf value => exact ⟨[], rfl⟩
  | node left right => exact ⟨_, rfl⟩

end Mountain

/-! ## Ranges -/

/-- Mountains from left to right. -/
abbrev Range (α : Type) := List ((height : Nat) × Mountain α height)

namespace Range

variable {range : Range α} {mountain : (height : Nat) × Mountain α height} {height : Nat}

/-- The heights of the mountains. -/
def heights (range : Range α) : List Nat := range.map Sigma.fst

/-- The values at the leaves, from left to right. -/
def leaves (range : Range α) : List α := range.flatMap fun mountain => mountain.2.leaves

/-- The number of nodes. -/
def size (range : Range α) : Nat := (range.map fun mountain => mountainSize mountain.1).sum

@[simp] theorem size_nil : size ([] : Range α) = 0 := rfl

@[simp] theorem size_cons (mountain : (height : Nat) × Mountain α height) (range : Range α) :
    size (mountain :: range) = mountainSize mountain.1 + size range := by
  simp [size]

@[simp] theorem size_append (left right : Range α) :
    size (left ++ right) = size left + size right := by
  simp [size]

theorem size_ne_zero (nonempty : range ≠ []) : range.size ≠ 0 := by
  cases range with
  | nil => exact absurd rfl nonempty
  | cons mountain range =>
    have := mountainSize_add_one mountain.1
    have := Nat.two_pow_pos mountain.1
    rw [size_cons]
    omega

@[simp] theorem leaves_append (left right : Range α) :
    leaves (left ++ right) = leaves left ++ leaves right := by
  simp [leaves]

@[simp] theorem leaves_cons (mountain : (height : Nat) × Mountain α height) (range : Range α) :
    leaves (mountain :: range) = mountain.2.leaves ++ leaves range := rfl

@[simp] theorem leaves_nil : leaves ([] : Range α) = [] := rfl

theorem length_leaves (range : Range α) :
    range.leaves.length = (range.heights.map fun height => 2 ^ height).sum := by
  induction range with
  | nil => rfl
  | cons mountain range ih => simp_all [heights]

/-- A range with `n` leaves and `k` mountains has `2 n - k` nodes. -/
theorem size_add_length (range : Range α) :
    range.size + range.length = 2 * range.leaves.length := by
  induction range with
  | nil => rfl
  | cons mountain range ih =>
    have := mountainSize_add_one mountain.1
    simp only [size_cons, leaves_cons, List.length_cons, List.length_append,
      Mountain.length_leaves]
    omega

/-- The mountains get strictly lower from left to right. -/
def Descending (range : Range α) : Prop := range.Pairwise fun left right => right.1 < left.1

/-- **A binary counter**: a descending range has one mountain for every binary digit one of the
number of its leaves. -/
theorem Descending.length_eq_bitIndices (h : range.Descending) :
    range.length = range.leaves.length.bitIndices.length := by
  have hsorted : range.heights.reverse.SortedLT := by
    rw [List.sortedLT_iff_pairwise, List.pairwise_reverse, heights, List.pairwise_map]
    exact h
  have hbits := Nat.bitIndices_sum_map_two_pow hsorted
  rw [List.map_reverse, List.sum_reverse, ← length_leaves] at hbits
  rw [hbits, List.length_reverse, heights, List.length_map]

/-- To the right of a mountain of a descending range there is room for another mountain, no higher
than those there are. -/
theorem Descending.length_leaves_add_le {level : Nat} (h : Descending (mountain :: range))
    (hlow : ∀ other ∈ mountain :: range, level ≤ other.1) :
    range.leaves.length + 2 ^ level ≤ 2 ^ mountain.1 := by
  induction range generalizing mountain with
  | nil =>
    rw [leaves_nil, List.length_nil, Nat.zero_add]
    exact Nat.pow_le_pow_right (by decide) (hlow mountain List.mem_cons_self)
  | cons next range ih =>
    obtain ⟨hlower, hrest⟩ := List.pairwise_cons.mp h
    have hnext : next.1 + 1 ≤ mountain.1 := hlower next List.mem_cons_self
    have hpow : 2 ^ (next.1 + 1) ≤ 2 ^ mountain.1 := Nat.pow_le_pow_right (by decide) hnext
    have := ih hrest fun other hother => hlow other (List.mem_cons_of_mem _ hother)
    rw [leaves_cons, List.length_append, Mountain.length_leaves]
    rw [pow_succ] at hpow
    omega

theorem Descending.length_leaves_lt (h : Descending (mountain :: range)) :
    range.leaves.length < 2 ^ mountain.1 :=
  h.length_leaves_add_le fun _ _ => Nat.zero_le _

/-- A descending range with fewer than `2 ^ bits` leaves has at most `bits` mountains. -/
theorem Descending.length_le (h : range.Descending) {bits : Nat}
    (few : range.leaves.length < 2 ^ bits) : range.length ≤ bits := by
  induction range generalizing bits with
  | nil => exact Nat.zero_le _
  | cons mountain range ih =>
    have hrest := ih (List.pairwise_cons.mp h).2 h.length_leaves_lt
    have hheight : mountain.1 < bits := by
      rw [leaves_cons, List.length_append, Mountain.length_leaves] at few
      exact (Nat.pow_lt_pow_iff_right (by decide)).mp (Nat.lt_of_le_of_lt (Nat.le_add_right _ _) few)
    rw [List.length_cons]
    omega

/-- To the right of every mountain there are no more leaves than it has itself. -/
def Stepped : Range α → Prop
  | [] => True
  | mountain :: range => (leaves range).length ≤ 2 ^ mountain.1 ∧ Stepped range

/-- A last mountain no higher than those of a descending range keeps the range stepped. -/
theorem Descending.stepped_append (h : range.Descending)
    (hlow : ∀ other ∈ range, mountain.1 ≤ other.1) :
    Stepped (range ++ [mountain]) := by
  induction range with
  | nil => exact ⟨Nat.zero_le _, trivial⟩
  | cons first range ih =>
    refine ⟨?_, ih (List.pairwise_cons.mp h).2 fun other hother =>
      hlow other (List.mem_cons_of_mem _ hother)⟩
    have := h.length_leaves_add_le hlow
    simpa using this

/-! ## Appending -/

/-- Append a mountain to the reversed range, merging equally high neighbours. -/
def carry : (mountain : (height : Nat) × Mountain α height) → (reversed : Range α) → Range α
  | mountain, [] => [mountain]
  | ⟨height, mountain⟩, ⟨height', left⟩ :: reversed =>
    if h : height' = height then
      carry ⟨height + 1, .node (h ▸ left) mountain⟩ reversed
    else ⟨height, mountain⟩ :: ⟨height', left⟩ :: reversed

/-- The range after a value has been appended. -/
def append (range : Range α) (value : α) : Range α :=
  (carry ⟨0, .leaf value⟩ range.reverse).reverse

theorem carry_cons_of_eq (left right : Mountain α height) (reversed : Range α) :
    carry ⟨height, right⟩ (⟨height, left⟩ :: reversed) =
      carry ⟨height + 1, .node left right⟩ reversed := by
  rw [carry, dif_pos rfl]

theorem carry_cons_of_ne {height' : Nat} (left : Mountain α height')
    (right : Mountain α height) (hne : height' ≠ height) (reversed : Range α) :
    carry ⟨height, right⟩ (⟨height', left⟩ :: reversed) =
      ⟨height, right⟩ :: ⟨height', left⟩ :: reversed := by
  rw [carry, dif_neg hne]

/-- **Induction along a carry**: no neighbour, a neighbour of another height, a merge. -/
theorem carry_induction {P : (height : Nat) × Mountain α height → Range α → Prop}
    (single : ∀ mountain, P mountain [])
    (apart : ∀ (height height' : Nat) (right : Mountain α height) (left : Mountain α height')
      (reversed : Range α), height' ≠ height → P ⟨height, right⟩ (⟨height', left⟩ :: reversed))
    (merge : ∀ (height : Nat) (right left : Mountain α height) (reversed : Range α),
      P ⟨height + 1, .node left right⟩ reversed → P ⟨height, right⟩ (⟨height, left⟩ :: reversed))
    (mountain : (height : Nat) × Mountain α height) (reversed : Range α) : P mountain reversed := by
  induction reversed generalizing mountain with
  | nil => exact single mountain
  | cons left reversed ih =>
    obtain ⟨height, right⟩ := mountain
    obtain ⟨height', left⟩ := left
    by_cases h : height' = height
    · subst h
      exact merge height' right left reversed (ih _)
    · exact apart height height' right left reversed h

/-- Appending keeps the leaves, in order. -/
theorem leaves_carry (mountain : (height : Nat) × Mountain α height) (reversed : Range α) :
    leaves (carry mountain reversed).reverse = leaves reversed.reverse ++ mountain.2.leaves := by
  induction mountain, reversed using carry_induction with
  | single mountain => simp [carry]
  | apart height height' right left reversed hne =>
    rw [carry_cons_of_ne left right hne, List.reverse_cons, leaves_append]
    simp
  | merge height right left reversed ih =>
    rw [carry_cons_of_eq, ih, List.reverse_cons, leaves_append, leaves_cons, leaves_nil,
      Mountain.leaves]
    simp

@[simp] theorem leaves_range_append (range : Range α) (value : α) :
    (range.append value).leaves = range.leaves ++ [value] := by
  rw [append, leaves_carry, List.reverse_reverse, Mountain.leaves]

/-- A mountain no higher than its neighbours is carried to a descending range. -/
theorem descending_carry {reversed : Range α}
    (h : reversed.Pairwise fun left right => left.1 < right.1)
    (hlow : ∀ other ∈ reversed, mountain.1 ≤ other.1) :
    (carry mountain reversed).Pairwise fun left right => left.1 < right.1 := by
  induction mountain, reversed using carry_induction with
  | single mountain => exact List.pairwise_singleton _ _
  | apart height height' right left reversed hne =>
    rw [carry_cons_of_ne left right hne]
    obtain ⟨hleft, -⟩ := List.pairwise_cons.mp h
    have hlower : height < height' :=
      Nat.lt_of_le_of_ne (hlow ⟨height', left⟩ List.mem_cons_self) (Ne.symm hne)
    refine List.pairwise_cons.mpr ⟨?_, h⟩
    intro other hother
    obtain rfl | hother := List.mem_cons.mp hother
    · exact hlower
    · exact hlower.trans (hleft other hother)
  | merge height right left reversed ih =>
    rw [carry_cons_of_eq]
    obtain ⟨hleft, hrest⟩ := List.pairwise_cons.mp h
    exact ih hrest fun other hother => hleft other hother

theorem Descending.append (h : range.Descending) (value : α) : (range.append value).Descending := by
  refine List.pairwise_reverse.mpr (descending_carry ?_ fun other _ => Nat.zero_le _)
  exact List.pairwise_reverse.mpr h

/-! ## Values in postorder -/

section Values

variable (leafValue : Nat → α → β) (nodeValue : Nat → β → β → β)

/-- The values of all nodes of a range that follows the first `offset` positions. -/
def nodesFrom : Nat → Range α → List β
  | _, [] => []
  | offset, mountain :: range =>
    mountain.2.postorder leafValue nodeValue offset ++
      nodesFrom (offset + mountainSize mountain.1) range

/-- The values of the summits of a range that follows the first `offset` positions. -/
def peaksFrom : Nat → Range α → List β
  | _, [] => []
  | offset, mountain :: range =>
    mountain.2.peak leafValue nodeValue offset ::
      peaksFrom (offset + mountainSize mountain.1) range

@[simp] theorem length_nodesFrom (offset : Nat) (range : Range α) :
    (nodesFrom leafValue nodeValue offset range).length = range.size := by
  induction range generalizing offset with
  | nil => rfl
  | cons mountain range ih => simp [nodesFrom, ih]

/-- The nodes of a further mountain come after those there are. -/
theorem nodesFrom_append (offset : Nat) (left right : Range α) :
    nodesFrom leafValue nodeValue offset (left ++ right) =
      nodesFrom leafValue nodeValue offset left ++
        nodesFrom leafValue nodeValue (offset + left.size) right := by
  induction left generalizing offset with
  | nil => simp [nodesFrom]
  | cons mountain left ih =>
    rw [List.cons_append, nodesFrom, ih, nodesFrom, size_cons, List.append_assoc, Nat.add_assoc]

/-- The summit of a mountain is the last of its nodes. -/
theorem exists_nodesFrom_eq (left : Range α) (mountain : (height : Nat) × Mountain α height)
    (right : Range α) :
    ∃ front back, nodesFrom leafValue nodeValue 0 (left ++ mountain :: right) =
        front ++ mountain.2.peak leafValue nodeValue left.size :: back ∧
      front.length + 1 = left.size + mountainSize mountain.1 := by
  obtain ⟨below, hbelow⟩ := mountain.2.exists_postorder_eq leafValue nodeValue left.size
  have hlength := congrArg List.length hbelow
  rw [Mountain.length_postorder, List.length_append, List.length_singleton] at hlength
  refine ⟨nodesFrom leafValue nodeValue 0 left ++ below,
    nodesFrom leafValue nodeValue (left.size + mountainSize mountain.1) right, ?_, ?_⟩
  · rw [nodesFrom_append, Nat.zero_add, nodesFrom, hbelow]
    simp
  · rw [List.length_append, length_nodesFrom, hlength, Nat.add_assoc]

section Merge

variable {height : Nat} (range : Range α) (left right : Mountain α height)

/-- The nodes of two equally high neighbours and of the summit that joins them. -/
theorem nodesFrom_merge :
    nodesFrom leafValue nodeValue 0 (range ++ [⟨height + 1, .node left right⟩]) =
      nodesFrom leafValue nodeValue 0 (range ++ [⟨height, left⟩, ⟨height, right⟩]) ++
        [(Mountain.node left right).peak leafValue nodeValue range.size] := by
  rw [nodesFrom_append, nodesFrom_append, Nat.zero_add]
  simp [nodesFrom, Mountain.postorder]

/-- The joint summit is the next node. -/
theorem size_merge :
    size (range ++ [⟨height + 1, .node left right⟩]) =
      size (range ++ [⟨height, left⟩, ⟨height, right⟩]) + 1 := by
  have := mountainSize_succ height
  simp only [size_append, size_cons, size_nil]
  omega

/-- The leaves stay. -/
theorem leaves_merge : leaves (range ++ [⟨height + 1, .node left right⟩]) =
      leaves (range ++ [⟨height, left⟩, ⟨height, right⟩]) := by
  simp [Mountain.leaves]

end Merge

/-- Carrying only adds nodes at the end. -/
theorem nodesFrom_carry_prefix (mountain : (height : Nat) × Mountain α height)
    (reversed : Range α) :
    nodesFrom leafValue nodeValue 0 (reversed.reverse ++ [mountain]) <+:
      nodesFrom leafValue nodeValue 0 (carry mountain reversed).reverse := by
  induction mountain, reversed using carry_induction with
  | single mountain => simp [carry]
  | apart height height' right left reversed hne =>
    rw [carry_cons_of_ne left right hne]
    simp
  | merge height right left reversed ih =>
    rw [carry_cons_of_eq, List.reverse_cons, List.append_assoc]
    rw [nodesFrom_merge] at ih
    exact (List.prefix_append _ _).trans ih

end Values

end Range

end DomProtocol
