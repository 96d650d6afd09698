import DomProtocol.Lib.Mountain
import DomProtocol.Pmmr
import DomProtocol.Transparent

/-! # The accumulator against its recursive definition (`dom-pmmr`)

The accumulator finds its way by arithmetic on postorder positions. Here it is compared with the
tree-shaped definition of a Merkle mountain range, **`referenceRoot`**: perfect trees of strictly
decreasing sizes, hashed bottom-up with the positions of their nodes, and bagged.

**`Represents`** says that the accumulator holds exactly the nodes of a descending range. Appending
a leaf follows the carry of the range (`Represents.push`), because the jumps of `nodeHeight` strip
one mountain after the other from the left (`nodeHeight_size`). -/

namespace DomProtocol

open Range

/-! ## Heights -/

theorem log2_eq_of_bounds {n k : Nat} (low : 2 ^ k ≤ n) (high : n < 2 ^ (k + 1)) : Nat.log2 n = k :=
  (Nat.log2_eq_iff (by have := Nat.two_pow_pos k; omega)).mpr ⟨low, high⟩

/-- The last position of a mountain that starts at 1 is all ones. -/
theorem isAllOnes_mountainSize {height : Nat} (fits : mountainSize height + 1 < 2 ^ 64) :
    isAllOnes (mountainSize height) = true := by
  have hsize : mountainSize height + 1 = 2 ^ (height + 1) := by
    rw [mountainSize_add_one, pow_succ]
    ring
  have hpos : mountainSize height ≠ 0 := by
    have := Nat.two_pow_pos height
    have := mountainSize_add_one height
    omega
  rw [isAllOnes, hsize, Nat.log2_two_pow]
  simp only [ne_eq, hpos, not_false_eq_true, decide_true, Bool.true_and, Bool.and_true,
    decide_eq_true_eq]
  rwa [← hsize]

theorem mostSignificantPos_mountainSize (height : Nat) :
    mostSignificantPos (mountainSize height) = height + 1 := by
  have hsize := mountainSize_add_one height
  have hpos := Nat.two_pow_pos height
  rw [mostSignificantPos, if_neg (by omega), log2_eq_of_bounds]
  · omega
  · rw [pow_succ]
    omega

section Jump

variable {height rest : Nat} (positive : 1 ≤ rest) (room : rest ≤ mountainSize height)
include positive room

/-- Beyond a mountain, and before the end of an equally high one to its right, no position is all
ones. -/
theorem isAllOnes_beyond : isAllOnes (mountainSize height + rest) = false := by
  have hsize := mountainSize_add_one height
  have hlog : Nat.log2 (mountainSize height + rest + 1) = height + 1 :=
    log2_eq_of_bounds (by rw [pow_succ]; omega) (by rw [pow_succ, pow_succ]; omega)
  rw [isAllOnes, hlog, pow_succ]
  simp only [Bool.and_eq_false_iff, decide_eq_false_iff_not]
  omega

/-- From there, a jump to the left skips the mountain. -/
theorem jumpLeft_beyond : jumpLeft (mountainSize height + rest) = rest := by
  have hsize := mountainSize_add_one height
  have hlog : Nat.log2 (mountainSize height + rest) = height + 1 :=
    log2_eq_of_bounds (by rw [pow_succ]; omega) (by rw [pow_succ, pow_succ]; omega)
  rw [jumpLeft, mostSignificantPos, if_neg (by omega), hlog, Nat.add_sub_cancel]
  exact Nat.add_sub_cancel_left _ _

end Jump

/-- Height of the node with a postorder number in a perfect tree: the left subtree is numbered
first, then the right one, then the root. -/
def heightInTree : (height pos : Nat) → Nat
  | 0, _ => 0
  | height + 1, pos =>
    if pos ≤ mountainSize height then heightInTree height pos
    else if pos ≤ mountainSize height + mountainSize height then
      heightInTree height (pos - mountainSize height)
    else height + 1

/-- **Height of the node with a postorder number** in the infinite tree that grows to the right,
read in the first perfect tree on its left edge that holds the node. -/
def postorderHeight (pos : Nat) : Nat := heightInTree (Nat.log2 pos) pos

/-- **The jumps follow the tree**: they end, at the first node of the same height. -/
theorem jumpLeftToPerfect_heightInTree {height pos fuel : Nat} (positive : 1 ≤ pos)
    (held : pos ≤ mountainSize height) (fits : pos + 1 < 2 ^ 64) (enough : height < fuel) :
    jumpLeftToPerfect fuel pos = mountainSize (heightInTree height pos) ∧
      isAllOnes (jumpLeftToPerfect fuel pos) = true := by
  obtain _ | fuel := fuel
  · cases enough
  induction height generalizing pos fuel with
  | zero =>
    obtain rfl : pos = mountainSize 0 := le_antisymm held positive
    have hones := isAllOnes_mountainSize fits
    rw [jumpLeftToPerfect, if_pos hones]
    exact ⟨rfl, hones⟩
  | succ height ih =>
    have hsize := mountainSize_succ height
    obtain _ | fuel := fuel
    · omega
    rw [heightInTree]
    split_ifs with hleft hright
    · exact ih positive hleft fits (fuel + 1) (by omega)
    · -- in the right subtree a jump leads to the same place in the left one
      obtain ⟨rest, rfl⟩ := Nat.exists_eq_add_of_le (Nat.le_of_not_le hleft)
      rw [jumpLeftToPerfect, isAllOnes_beyond (by omega) (by omega), if_neg Bool.false_ne_true,
        jumpLeft_beyond (by omega) (by omega), Nat.add_sub_cancel_left]
      exact ih (by omega) (by omega) (by omega) fuel (by omega)
    · obtain rfl : pos = mountainSize (height + 1) := by omega
      have hones := isAllOnes_mountainSize fits
      rw [jumpLeftToPerfect, if_pos hones]
      exact ⟨rfl, hones⟩

/-- **The height of a position is that of its node**, except at the last 64-bit position. The jumps
end at every position. -/
theorem nodeHeight_eq_postorderHeight_iff {pos : Nat} (positive : 1 ≤ pos) (word : pos < 2 ^ 64) :
    isAllOnes (jumpLeftToPerfect 64 pos) = true ∧
      (nodeHeight pos = postorderHeight pos ↔ pos ≠ 2 ^ 64 - 1) := by
  have hpos : pos ≠ 0 := by omega
  obtain rfl | hlast := eq_or_ne pos (2 ^ 64 - 1)
  · decide +kernel
  · have hheight : Nat.log2 pos < 64 := (Nat.log2_lt hpos).mpr word
    have hheld : pos ≤ mountainSize (Nat.log2 pos) := Nat.le_sub_one_of_lt Nat.lt_log2_self
    obtain ⟨hjumps, hends⟩ := jumpLeftToPerfect_heightInTree positive hheld (by omega) hheight
    refine ⟨hends, iff_of_true ?_ hlast⟩
    rw [nodeHeight, if_neg hpos, hjumps, mostSignificantPos_mountainSize, Nat.add_sub_cancel,
      postorderHeight]

/-- The sixth node of a tree is the root of its second pair of leaves. -/
theorem nodeHeight_six :
    isAllOnes (jumpLeftToPerfect 64 6) = true ∧ nodeHeight 6 = postorderHeight 6 := by
  obtain ⟨hends, hheight⟩ := @nodeHeight_eq_postorderHeight_iff 6 (by decide) (by decide)
  exact ⟨hends, hheight.mpr (by decide)⟩

/-- **A node of height 63 is taken for a leaf**: the successor of its position does not fit in 64
bits, so it does not count as all ones. -/
theorem nodeHeight_last : nodeHeight (2 ^ 64 - 1) = 0 ∧ postorderHeight (2 ^ 64 - 1) = 63 := by
  decide +kernel

variable {α : Type}

variable {range : Range α} {mountain : (height : Nat) × Mountain α height} {reversed : Range α}

/-- **The jumps strip the mountains from the left**, until only the last one is left. -/
theorem jumpLeftToPerfect_size
    (stepped : Stepped (range ++ [mountain])) (fits : size (range ++ [mountain]) + 1 < 2 ^ 64)
    {fuel : Nat} (enough : range.length ≤ fuel) :
    jumpLeftToPerfect fuel (size (range ++ [mountain])) = mountainSize mountain.1 := by
  induction range generalizing fuel with
  | nil =>
    rw [List.nil_append, size_cons, size_nil, Nat.add_zero] at *
    cases fuel with
    | zero => rfl
    | succ fuel => rw [jumpLeftToPerfect, if_pos (isAllOnes_mountainSize fits)]
  | cons first range ih =>
    obtain ⟨hroom, hrest⟩ := stepped
    change (leaves (range ++ [mountain])).length ≤ 2 ^ first.1 at hroom
    have hleaves := size_add_length (range ++ [mountain])
    have hfirst := mountainSize_add_one first.1
    rw [List.length_append, List.length_singleton] at hleaves
    rw [List.cons_append, size_cons] at fits ⊢
    obtain _ | fuel := fuel
    · cases enough
    · have hsome : 1 ≤ size (range ++ [mountain]) := Nat.one_le_iff_ne_zero.mpr
        (size_ne_zero (by simp))
      have hmost : size (range ++ [mountain]) ≤ mountainSize first.1 := by omega
      rw [jumpLeftToPerfect, isAllOnes_beyond hsome hmost, if_neg Bool.false_ne_true,
        jumpLeft_beyond hsome hmost]
      exact ih hrest (by omega) (Nat.le_of_succ_le_succ enough)

/-- **The height of the last node of a range is that of its last mountain.** -/
theorem nodeHeight_size (descending : range.Descending) (hlow : ∀ other ∈ range, mountain.1 ≤ other.1)
    (few : (leaves (range ++ [mountain])).length < 2 ^ 63) :
    nodeHeight (size (range ++ [mountain])) = mountain.1 := by
  have hsize := size_add_length (range ++ [mountain])
  have hlength : range.length ≤ 64 := by
    refine descending.length_le ?_
    rw [leaves_append, List.length_append] at few
    omega
  have hpos : size (range ++ [mountain]) ≠ 0 := size_ne_zero (by simp)
  rw [nodeHeight, if_neg hpos,
    jumpLeftToPerfect_size (descending.stepped_append hlow) (by omega) hlength,
    mostSignificantPos_mountainSize, Nat.add_sub_cancel]

/-- The same, for a range given from right to left. -/
theorem nodeHeight_reverse (ascending : reversed.Pairwise fun left right => left.1 < right.1)
    (hlow : ∀ other ∈ reversed, mountain.1 ≤ other.1)
    (few : (leaves (reversed.reverse ++ [mountain])).length < 2 ^ 63) :
    nodeHeight (size (reversed.reverse ++ [mountain])) = mountain.1 :=
  nodeHeight_size (List.pairwise_reverse.mpr ascending)
    (fun other hother => hlow other (List.mem_reverse.mp hother)) few

/-- The height of the left neighbour of the last mountain, at the position before it. -/
theorem nodeHeight_left {height height' : Nat} {right : Mountain α height}
    {left : Mountain α height'}
    (ascending : (⟨height', left⟩ :: reversed : Range α).Pairwise fun left right => left.1 < right.1)
    (few : (leaves ((⟨height', left⟩ :: reversed : Range α).reverse ++ [⟨height, right⟩])).length <
      2 ^ 63) :
    nodeHeight (size (List.reverse (⟨height', left⟩ :: reversed))) = height' := by
  obtain ⟨hlower, hrest⟩ := List.pairwise_cons.mp ascending
  rw [leaves_append, List.length_append, List.reverse_cons] at few
  rw [List.reverse_cons]
  exact nodeHeight_reverse hrest (fun other hother => (hlower other hother).le) (by omega)

/-- The positions of a range with fewer than `2 ^ 63` leaves are 64-bit numbers. -/
theorem size_add_two_lt (few : range.leaves.length < 2 ^ 63) : range.size + 2 < 2 ^ 64 := by
  have hsum := size_add_length range
  cases range with
  | nil => simp
  | cons mountain range =>
    rw [List.length_cons] at hsum
    omega

/-! ## Nodes -/

/-- The number of binary digits one. -/
theorem countOnes_eq {n : Nat} (fits : n < 2 ^ 64) : countOnes n = n.bitIndices.length := by
  have hnodup : ((List.range 64).filter fun i => n.testBit i).Nodup :=
    List.nodup_range.filter _
  apply List.Perm.length_eq
  rw [List.perm_ext_iff_of_nodup hnodup Nat.bitIndices_nodup]
  intro i
  rw [List.mem_filter, List.mem_range, Nat.mem_bitIndices]
  refine ⟨And.right, fun h => ⟨?_, h⟩⟩
  by_contra hi
  -- beyond the width every digit is zero
  have hzero := Nat.testBit_lt_two_pow (fits.trans_le (Nat.pow_le_pow_right (by decide)
    (Nat.not_lt.mp hi)))
  rw [hzero] at h
  cases h

namespace Pmmr

variable {pmmr : Pmmr} {values : List Hash256}

/-- The node that follows `front` in a full accumulator. -/
theorem getNode_of_nodes {front back : List Hash256} {value : Hash256}
    (hnodes : pmmr.nodes = none :: (front ++ value :: back).map some) :
    pmmr.getNode (front.length + 1) = some value := by
  rw [getNode, hnodes, List.getElem?_cons_succ, List.map_append]
  simp

/-- Placing a node right after the last one. -/
theorem setNode_append (hnodes : pmmr.nodes = none :: values.map some)
    (fits : values.length + 2 < 2 ^ 64) (hash : Hash256) :
    pmmr.setNode (values.length + 1) hash =
      .ok { pmmr with nodes := none :: (values ++ [hash]).map some } := by
  rw [setNode, rejectIf_of_not _ (by omega)]
  simp [hnodes]

variable [Primitives]

/-- The hashes of all nodes of a range, in the order of their positions. -/
def rangeNodes (range : Range Bytes) : List Hash256 := nodesFrom leafHash nodeHash 0 range

@[simp] theorem length_rangeNodes (range : Range Bytes) :
    (rangeNodes range).length = range.size := length_nodesFrom _ _ _ _

variable {range : Range Bytes}

/-- The summit of a mountain is found at its last position. -/
theorem getNode_peak (left : Range Bytes) (mountain : (height : Nat) × Mountain Bytes height)
    (right : Range Bytes)
    (hnodes : pmmr.nodes = none :: (rangeNodes (left ++ mountain :: right)).map some) :
    pmmr.getNode (left.size + mountainSize mountain.1) =
      some (mountain.2.peak leafHash nodeHash left.size) := by
  obtain ⟨front, back, heq, hlength⟩ :=
    exists_nodesFrom_eq leafHash nodeHash left mountain right
  rw [rangeNodes, heq] at hnodes
  rw [← hlength]
  exact getNode_of_nodes hnodes

/-! ## Appending a leaf -/

/-- One iteration of the merging loop, for a mountain that is not the first: its left neighbour
ends where it starts. -/
theorem mergePeaks_succ {mountain : (height : Nat) × Mountain Bytes height}
    (hheight : nodeHeight (size (range ++ [mountain])) = mountain.1) (hsome : range.size ≠ 0)
    (fits : size (range ++ [mountain]) + 1 < 2 ^ 64) (fuel : Nat) :
    mergePeaks (fuel + 1) pmmr (size (range ++ [mountain])) =
      if nodeHeight range.size ≠ mountain.1 then .ok pmmr
      else (do
        let left ← okOr (.internal s!"missing node at {range.size}") (pmmr.getNode range.size)
        let right ← okOr (.internal s!"missing node at {size (range ++ [mountain])}")
          (pmmr.getNode (size (range ++ [mountain])))
        let pmmr ← pmmr.setNode (size (range ++ [mountain]) + 1)
          (nodeHash (size (range ++ [mountain]) + 1) left right)
        mergePeaks fuel pmmr (size (range ++ [mountain]) + 1)) := by
  have hsize : size (range ++ [mountain]) = range.size + (2 ^ (mountain.1 + 1) - 1) := by
    simp [mountainSize]
  have hmore : ¬ size (range ++ [mountain]) ≤ 2 ^ (mountain.1 + 1) - 1 := by omega
  have hleft : size (range ++ [mountain]) - (2 ^ (mountain.1 + 1) - 1) = range.size := by omega
  rw [mergePeaks, hheight]
  dsimp only
  rw [if_neg hmore, hleft, if_pos fits]
  rfl

/-- Two equally high mountains at the end, their summits, and the summit that joins them. -/
theorem setNode_merge {height : Nat} {left right : Mountain Bytes height} (hnodes : pmmr.nodes =
      none :: (rangeNodes (range ++ [⟨height, left⟩, ⟨height, right⟩])).map some)
    (fits : size (range ++ [⟨height, left⟩, ⟨height, right⟩]) + 2 < 2 ^ 64) :
    ∃ leftHash rightHash, pmmr.getNode (size (range ++ [⟨height, left⟩])) = some leftHash ∧
      pmmr.getNode (size (range ++ [⟨height, left⟩, ⟨height, right⟩])) = some rightHash ∧
      pmmr.setNode (size (range ++ [⟨height, left⟩, ⟨height, right⟩]) + 1)
          (nodeHash (size (range ++ [⟨height, left⟩, ⟨height, right⟩]) + 1) leftHash rightHash) =
        .ok { pmmr with
          nodes := none :: (rangeNodes (range ++ [⟨height + 1, .node left right⟩])).map some } := by
  have hsize : size (range ++ [⟨height, left⟩]) = range.size + mountainSize height := by simp
  have hparent : size (range ++ [⟨height, left⟩, ⟨height, right⟩]) + 1 =
      range.size + mountainSize (height + 1) := by
    rw [← size_merge, size_append, size_cons, size_nil, Nat.add_zero]
  have hleft := getNode_peak range ⟨height, left⟩ [⟨height, right⟩] hnodes
  have hright := getNode_peak (range ++ [⟨height, left⟩]) ⟨height, right⟩ []
    (by rwa [List.append_assoc])
  have hset := setNode_append hnodes (by rwa [length_rangeNodes])
    ((Mountain.node left right).peak leafHash nodeHash range.size)
  refine ⟨left.peak leafHash nodeHash range.size,
    right.peak leafHash nodeHash (range.size + mountainSize height), ?_, ?_, ?_⟩
  · rw [hsize]
    exact hleft
  · rw [hsize] at hright
    have hlast : size (range ++ [⟨height, left⟩, ⟨height, right⟩]) =
        range.size + mountainSize height + mountainSize height := by
      simp [Nat.add_assoc]
    rw [hlast]
    exact hright
  · rw [length_rangeNodes, hparent] at hset
    rw [hparent, rangeNodes, nodesFrom_merge]
    exact hset

/-- **Merging peaks follows the carry.** The loop starts at the last node of a range whose last
mountain is no higher than the others, and leaves the nodes of the range after the carry. -/
theorem mergePeaks_carry (mountain : (height : Nat) × Mountain Bytes height)
    (reversed : Range Bytes) (hnodes : pmmr.nodes =
      none :: (rangeNodes (reversed.reverse ++ [mountain])).map some)
    (ascending : reversed.Pairwise fun left right => left.1 < right.1)
    (hlow : ∀ other ∈ reversed, mountain.1 ≤ other.1)
    (few : (leaves (reversed.reverse ++ [mountain])).length < 2 ^ 63) {fuel : Nat}
    (enough : reversed.length ≤ fuel) :
    mergePeaks (fuel + 1) pmmr (size (reversed.reverse ++ [mountain])) =
      .ok { pmmr with nodes := none :: (rangeNodes (carry mountain reversed).reverse).map some } := by
  induction mountain, reversed using carry_induction generalizing pmmr fuel with
  | single mountain =>
    -- the first mountain starts at position 1 and has no left neighbour
    have hstop : size ([].reverse ++ [mountain]) ≤ 2 ^ (mountain.1 + 1) - 1 := by
      simp [mountainSize]
    rw [mergePeaks, nodeHeight_reverse ascending hlow few, if_pos hstop, carry,
      List.reverse_singleton]
    rw [List.reverse_nil, List.nil_append] at hnodes
    rw [← hnodes]
    rfl
  | apart height height' right left reversed hne =>
    rw [mergePeaks_succ (nodeHeight_reverse ascending hlow few) (size_ne_zero (by simp))
      (Nat.lt_of_succ_lt (size_add_two_lt few)), nodeHeight_left ascending few, if_pos hne,
      carry_cons_of_ne left right hne, List.reverse_cons, ← hnodes]
  | merge height right left reversed ih =>
    obtain ⟨hlower, hrest⟩ := List.pairwise_cons.mp ascending
    rw [mergePeaks_succ (nodeHeight_reverse ascending hlow few) (size_ne_zero (by simp))
      (Nat.lt_of_succ_lt (size_add_two_lt few)), nodeHeight_left ascending few, if_neg (not_not.mpr rfl)]
    obtain _ | fuel := fuel
    · cases enough
    rw [List.reverse_cons, List.append_assoc, List.singleton_append] at *
    -- the summit that joins the two neighbours is placed, and the loop goes on from it
    obtain ⟨leftHash, rightHash, hl, hr, hset⟩ := setNode_merge hnodes (size_add_two_lt few)
    rw [hl, okOr_some, ok_bind, hr, okOr_some, ok_bind, hset, ok_bind, ← size_merge,
      carry_cons_of_eq]
    rw [← leaves_merge] at few
    exact ih rfl hrest (fun other hother => hlower other hother) few
      (Nat.le_of_succ_le_succ enough)

/-- **The accumulator holds exactly the nodes of a descending range.** -/
structure Represents (pmmr : Pmmr) (range : Range Bytes) : Prop where
  nodes : pmmr.nodes = none :: (rangeNodes range).map some
  leafCount : pmmr.leafCount = range.leaves.length
  descending : range.Descending

theorem represents_new : Represents new [] := ⟨rfl, rfl, List.Pairwise.nil⟩

/-- The number of nodes is the one the accumulator computes from its number of leaves. -/
theorem Represents.size_eq (h : Represents pmmr range) (few : range.leaves.length < 2 ^ 63) :
    range.leaves.length * 2 = range.size + countOnes range.leaves.length := by
  rw [countOnes_eq (by omega), ← h.descending.length_eq_bitIndices, size_add_length, Nat.mul_comm]

/-- Position 0 is empty, every later one is taken. -/
theorem Represents.countP_nodes (h : Represents pmmr range) :
    pmmr.nodes.countP Option.isSome = range.size := by
  have hall : ((rangeNodes range).map some).countP Option.isSome =
      ((rangeNodes range).map some).length := by
    rw [List.countP_eq_length]
    intro node hnode
    obtain ⟨hash, -, rfl⟩ := List.mem_map.mp hnode
    rfl
  rw [h.nodes, List.countP_cons, hall, List.length_map, length_rangeNodes]
  rfl

/-- **Appending a leaf succeeds and follows the carry.** -/
theorem Represents.push (h : Represents pmmr range) (payload : Bytes)
    (few : range.leaves.length + 1 < 2 ^ 63) :
    ∃ pmmr', pmmr.push payload = .ok pmmr' ∧ Represents pmmr' (range.append payload) := by
  have hsize := h.size_eq (by omega)
  have hleafPos : range.leaves.length * 2 - countOnes range.leaves.length + 1 = range.size + 1 := by
    omega
  have hplaced : rangeNodes (range ++ [⟨0, .leaf payload⟩]) =
      rangeNodes range ++ [leafHash (range.size + 1) payload] := by
    rw [rangeNodes, nodesFrom_append, Nat.zero_add]
    rfl
  have hset := setNode_append h.nodes (by rw [length_rangeNodes]; omega)
    (leafHash (range.size + 1) payload)
  rw [length_rangeNodes, ← hplaced] at hset
  have hlength : range.length ≤ 63 := h.descending.length_le (by omega)
  have hmerge : ∀ placed : Pmmr,
      placed.nodes = none :: (rangeNodes (range ++ [⟨0, .leaf payload⟩])).map some →
      mergePeaks 64 placed (range.size + 1) = .ok { placed with
        nodes := none :: (rangeNodes (range.append payload)).map some } := by
    intro placed hnodes
    rw [← List.reverse_reverse range] at hnodes
    have hcarry := mergePeaks_carry ⟨0, .leaf payload⟩ range.reverse hnodes
      (List.pairwise_reverse.mpr h.descending) (fun other _ => Nat.zero_le _)
      (by simpa [Mountain.leaves] using few) (by simpa using hlength)
    simpa [mountainSize, Range.append] using hcarry
  refine ⟨⟨none :: (rangeNodes (range.append payload)).map some, pmmr.leafCount + 1⟩, ?_,
    rfl, ?_, h.descending.append payload⟩
  · rw [Pmmr.push, h.leafCount, rejectIf_of_not _ (by omega), ok_bind, rejectIf_of_not _ (by omega),
      ok_bind]
    dsimp only
    rw [hleafPos, rejectIf_of_not _ (by omega), ok_bind, hset, ok_bind, hmerge _ rfl, ok_bind]
    rfl
  · rw [leaves_range_append, List.length_append, h.leafCount]
    rfl

/-! ## Many leaves -/

/-- Append leaves one by one. -/
def pushAll (pmmr : Pmmr) (payloads : List Bytes) : Result Pmmr := payloads.foldlM push pmmr

/-- The range after leaves have been appended one by one. -/
def appendAll (range : Range Bytes) (payloads : List Bytes) : Range Bytes :=
  payloads.foldl Range.append range

omit [Primitives] in
theorem leaves_appendAll (range : Range Bytes) (payloads : List Bytes) :
    (appendAll range payloads).leaves = range.leaves ++ payloads := by
  induction payloads generalizing range with
  | nil => simp [appendAll]
  | cons payload payloads ih =>
    rw [appendAll, List.foldl_cons, ← appendAll, ih, leaves_range_append, List.append_assoc]
    rfl

/-- **Appending leaves one by one succeeds**, and the accumulator follows the range. -/
theorem Represents.pushAll (h : Represents pmmr range) (payloads : List Bytes)
    (few : range.leaves.length + payloads.length < 2 ^ 63) :
    ∃ pmmr', pmmr.pushAll payloads = .ok pmmr' ∧ Represents pmmr' (appendAll range payloads) := by
  induction payloads generalizing pmmr range with
  | nil => exact ⟨pmmr, rfl, h⟩
  | cons payload payloads ih =>
    rw [List.length_cons] at few
    obtain ⟨next, hpush, hnext⟩ := h.push payload (by omega)
    obtain ⟨final, hfinal, hrep⟩ := ih hnext (by
      rw [leaves_range_append, List.length_append, List.length_singleton]
      omega)
    refine ⟨final, ?_, hrep⟩
    rw [Pmmr.pushAll, List.foldlM_cons, hpush, ok_bind]
    exact hfinal

/-- The nodes of a range are the first nodes of every range it grows to. -/
theorem rangeNodes_prefix_append (range : Range Bytes) (payload : Bytes) :
    rangeNodes range <+: rangeNodes (range.append payload) := by
  have hcarry := nodesFrom_carry_prefix leafHash nodeHash ⟨0, .leaf payload⟩ range.reverse
  rw [List.reverse_reverse, nodesFrom_append] at hcarry
  exact (List.prefix_append _ _).trans hcarry

theorem rangeNodes_prefix_appendAll (range : Range Bytes) (payloads : List Bytes) :
    rangeNodes range <+: rangeNodes (appendAll range payloads) := by
  induction payloads generalizing range with
  | nil => exact List.prefix_rfl
  | cons payload payloads ih =>
    exact (rangeNodes_prefix_append range payload).trans (ih _)

/-- A node of an accumulator is a node of every accumulator with further nodes. -/
theorem Represents.getNode_of_prefix {later : Pmmr} {range range' : Range Bytes}
    (h : Represents pmmr range) (h' : Represents later range')
    (hinitial : rangeNodes range <+: rangeNodes range') {pos : Nat} {hash : Hash256}
    (hget : pmmr.getNode pos = some hash) : later.getNode pos = some hash := by
  obtain ⟨further, hfurther⟩ := hinitial
  rw [getNode, h.nodes, Option.join_eq_some_iff] at hget
  rw [getNode, h'.nodes, ← hfurther, List.map_append, ← List.cons_append,
    List.getElem?_append_left (List.getElem?_eq_some_iff.mp hget).1, hget]
  rfl

/-! ## The root -/

/-- The positions of the summits of a range that follows the first `offset` positions. -/
def summitPositions : Nat → Range Bytes → List Nat
  | _, [] => []
  | offset, mountain :: range =>
    (offset + mountainSize mountain.1) ::
      summitPositions (offset + mountainSize mountain.1) range

omit [Primitives] in
/-- **The scan over the bits of the number of leaves finds the summits.** -/
theorem peakPositionsFrom_eq (descending : range.Descending) {bits offset : Nat}
    (few : range.leaves.length < 2 ^ bits) (fits : offset + range.size < 2 ^ 64) :
    peakPositionsFrom bits range.leaves.length offset = some (summitPositions offset range) := by
  induction bits generalizing range offset with
  | zero =>
    cases range with
    | nil => rfl
    | cons mountain range =>
      have := Nat.two_pow_pos mountain.1
      rw [leaves_cons, List.length_append, Mountain.length_leaves] at few
      omega
  | succ bit ih =>
    cases range with
    | nil =>
      have hnone : ¬ 2 ^ bit ≤ (leaves ([] : Range Bytes)).length :=
        Nat.not_le.mpr (Nat.two_pow_pos bit)
      rw [peakPositionsFrom, if_neg hnone]
      exact ih descending (Nat.two_pow_pos bit) fits
    | cons mountain range =>
      have hrest := descending.length_leaves_lt
      have hlength : (leaves (mountain :: range)).length =
          2 ^ mountain.1 + (leaves range).length := by
        rw [leaves_cons, List.length_append, Mountain.length_leaves]
      have hheight : mountain.1 < bit + 1 := by
        refine (Nat.pow_lt_pow_iff_right (by decide : 1 < 2)).mp ?_
        omega
      rw [size_cons] at fits
      obtain hbit | hbit := Nat.lt_or_eq_of_le (Nat.le_of_lt_succ hheight)
      · -- the first mountain is lower than the size scanned
        have hpow : 2 ^ (mountain.1 + 1) ≤ 2 ^ bit := Nat.pow_le_pow_right (by decide) hbit
        rw [pow_succ] at hpow
        rw [peakPositionsFrom, if_neg (by omega)]
        exact ih descending (by omega) (by rwa [size_cons])
      · have hpos := mountainSize_add_one mountain.1
        have hpeak : offset + (2 ^ bit - 1 + 2 ^ bit) = offset + mountainSize mountain.1 := by
          rw [← hbit]
          omega
        have hremaining : (leaves (mountain :: range)).length - 2 ^ bit =
            (leaves range).length := by
          rw [← hbit]
          omega
        rw [peakPositionsFrom, if_pos (by rw [← hbit]; omega), hremaining]
        dsimp only
        rw [hpeak, if_pos (by omega), ih (List.pairwise_cons.mp descending).2
          (by rwa [← hbit]) (by omega)]
        rfl

/-- Every summit is found at its position. -/
theorem forall₂_summits {front range : Range Bytes}
    (hnodes : pmmr.nodes = none :: (rangeNodes (front ++ range)).map some) :
    List.Forall₂ (fun pos hash => pmmr.getNode pos = some hash)
      (summitPositions front.size range) (peaksFrom leafHash nodeHash front.size range) := by
  induction range generalizing front with
  | nil => exact List.Forall₂.nil
  | cons mountain range ih =>
    refine List.Forall₂.cons (getNode_peak front mountain range hnodes) ?_
    rw [List.append_cons] at hnodes
    have hrest := ih hnodes
    rwa [size_append, size_cons, size_nil, Nat.add_zero] at hrest

/-- The root of an accumulator bags the summits of its range. -/
theorem Represents.root_eq (h : Represents pmmr range) (few : range.leaves.length < 2 ^ 63) :
    pmmr.root = .ok (bagPeaks (peaksFrom leafHash nodeHash 0 range)) := by
  have hpositions : peakPositions range.leaves.length = some (summitPositions 0 range) :=
    peakPositionsFrom_eq h.descending (by omega) (by have := size_add_two_lt few; omega)
  have hsummits := @forall₂_summits pmmr _ [] range h.nodes
  rw [root, h.leafCount, hpositions, okOr_some, ok_bind, mapM_eq_ok.mpr, ok_bind]
  · rfl
  · exact hsummits.imp fun pos hash hget => okOr_eq_ok.mpr hget

end Pmmr

/-! ## The recursive definition -/

section Reference

variable [Primitives]

/-- The root of the perfect tree over `2 ^ height` leaves whose nodes follow the first `offset`
positions. -/
def perfectRoot : (height offset : Nat) → List Bytes → Hash256
  | 0, offset, leaves => leafHash (offset + 1) (leaves.headD [])
  | height + 1, offset, leaves =>
    nodeHash (offset + (2 ^ (height + 2) - 1)) (perfectRoot height offset (leaves.take (2 ^ height)))
      (perfectRoot height (offset + (2 ^ (height + 1) - 1)) (leaves.drop (2 ^ height)))

/-- The roots of the perfect trees into which the leaves split: the first takes the largest power of
two of them that there is. -/
def referencePeaks (offset : Nat) (leaves : List Bytes) : List Hash256 :=
  if leaves = [] then []
  else
    let height := Nat.log2 leaves.length
    perfectRoot height offset (leaves.take (2 ^ height)) ::
      referencePeaks (offset + (2 ^ (height + 1) - 1)) (leaves.drop (2 ^ height))
termination_by leaves.length
decreasing_by
  rename_i hsome
  have := List.length_pos_iff.mpr hsome
  have := Nat.two_pow_pos (Nat.log2 leaves.length)
  rw [List.length_drop]
  omega

/-- The root of the Merkle mountain range over a list of leaves. -/
def referenceRoot (leaves : List Bytes) : Hash256 := bagPeaks (referencePeaks 0 leaves)

theorem perfectRoot_eq_peak {height : Nat} (mountain : Mountain Bytes height) (offset : Nat) :
    perfectRoot height offset mountain.leaves = mountain.peak leafHash nodeHash offset := by
  induction mountain generalizing offset with
  | leaf value => rfl
  | node left right ihl ihr =>
    have hlength := left.length_leaves
    rw [perfectRoot, Mountain.leaves, List.take_left' hlength, List.drop_left' hlength, ihl, ihr]
    rfl

/-- **The mountains of a descending range are the perfect trees of the recursive definition.** -/
theorem referencePeaks_eq {range : Range Bytes} (descending : range.Descending) (offset : Nat) :
    referencePeaks offset range.leaves = peaksFrom leafHash nodeHash offset range := by
  induction range generalizing offset with
  | nil =>
    rw [referencePeaks, if_pos leaves_nil]
    rfl
  | cons mountain range ih =>
    have hrest := descending.length_leaves_lt
    have hlength := mountain.2.length_leaves
    have hlog : Nat.log2 (leaves (mountain :: range)).length = mountain.1 := by
      rw [leaves_cons, List.length_append, hlength]
      exact log2_eq_of_bounds (by omega) (by rw [pow_succ]; omega)
    have hsome : leaves (mountain :: range) ≠ [] := by
      rw [← List.length_pos_iff, leaves_cons, List.length_append, hlength]
      have := Nat.two_pow_pos mountain.1
      omega
    rw [referencePeaks, if_neg hsome, hlog]
    dsimp only
    rw [leaves_cons, List.take_left' hlength, List.drop_left' hlength, perfectRoot_eq_peak,
      ih (List.pairwise_cons.mp descending).2]
    rfl

/-- **The accumulator computes the recursive definition.** Appending fewer than `2 ^ 63` leaves to
the empty accumulator one by one never fails; it leaves exactly `2 n - popcount n` nodes, among them
unchanged every node written on the way; and the root is that of the recursive definition. -/
theorem pushAll_reference (payloads : List Bytes) (few : payloads.length < 2 ^ 63) :
    ∃ pmmr, Pmmr.new.pushAll payloads = .ok pmmr ∧
      pmmr.nodes.countP Option.isSome = 2 * payloads.length - countOnes payloads.length ∧
      (∀ count earlier, Pmmr.new.pushAll (payloads.take count) = .ok earlier →
        ∀ pos hash, earlier.getNode pos = some hash → pmmr.getNode pos = some hash) ∧
      pmmr.root = .ok (referenceRoot payloads) := by
  have hgrow : ∀ payloads : List Bytes, payloads.length < 2 ^ 63 → ∃ pmmr,
      Pmmr.new.pushAll payloads = .ok pmmr ∧ pmmr.Represents (Pmmr.appendAll [] payloads) :=
    fun payloads few => Pmmr.represents_new.pushAll payloads (by simpa using few)
  have hleaves : (Pmmr.appendAll [] payloads).leaves = payloads := by
    rw [Pmmr.leaves_appendAll, leaves_nil, List.nil_append]
  obtain ⟨pmmr, hpush, hrep⟩ := hgrow payloads few
  have hsize := hrep.size_eq (by rwa [hleaves])
  have hroot := hrep.root_eq (by rwa [hleaves])
  rw [hleaves] at hsize
  refine ⟨pmmr, hpush, ?_, ?_, ?_⟩
  · rw [hrep.countP_nodes]
    omega
  · intro count earlier hearlier pos hash hget
    obtain ⟨before, hbefore, hrepBefore⟩ := hgrow (payloads.take count)
      ((List.length_take_le' _ _).trans_lt few)
    cases hearlier.symm.trans hbefore
    refine hrepBefore.getNode_of_prefix hrep ?_ hget
    have hsplit : Pmmr.appendAll [] payloads =
        Pmmr.appendAll (Pmmr.appendAll [] (payloads.take count)) (payloads.drop count) := by
      rw [Pmmr.appendAll, Pmmr.appendAll, Pmmr.appendAll, ← List.foldl_append,
        List.take_append_drop]
    rw [hsplit]
    exact Pmmr.rangeNodes_prefix_appendAll _ _
  · rw [hroot, referenceRoot, ← referencePeaks_eq hrep.descending, hleaves]

end Reference

namespace Transparent

attribute [local instance] primitives

/-- Three leaves: a tree of two and a single one. -/
theorem pushAll_reference_three :
    ([[1], [2], [3]] : List Bytes).length < 2 ^ 63 ∧
      ∃ pmmr, Pmmr.new.pushAll [[1], [2], [3]] = .ok pmmr ∧
        pmmr.nodes.countP Option.isSome = 4 ∧ pmmr.root = .ok (referenceRoot [[1], [2], [3]]) := by
  have hones : countOnes 3 = 2 := by decide +kernel
  obtain ⟨pmmr, hpush, hcount, -, hroot⟩ := pushAll_reference [[1], [2], [3]] (by decide)
  refine ⟨by decide, pmmr, hpush, ?_, hroot⟩
  simpa [hones] using hcount

end Transparent

end DomProtocol
