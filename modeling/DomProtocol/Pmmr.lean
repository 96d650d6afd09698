import DomProtocol.Crypto

/-! # Merkle mountain range (`dom-pmmr`)

An append-only accumulator. Nodes are numbered from 1 in postorder, leaves and inner nodes alike; a
node at height `h` is the root of a perfect tree of `2 ^ h` leaves. **`Pmmr.push`** appends a leaf
and merges equal-height peaks, **`Pmmr.root`** bags the peaks from right to left.

Positions are 64-bit in the source; here they are naturals, with the overflow checks the source
makes. The two loops of the source carry a fuel of 64, the number of heights there are. -/

namespace DomProtocol

/-! ## Position arithmetic -/

/-- Whether `n` has the form `2 ^ k - 1` with `k > 0` and `n + 1` still fits in 64 bits. -/
def isAllOnes (n : Nat) : Bool :=
  n ≠ 0 && n + 1 < 2 ^ 64 && 2 ^ Nat.log2 (n + 1) = n + 1

/-- Position of the most significant set bit, counted from 1; zero for zero. -/
def mostSignificantPos (n : Nat) : Nat := if n = 0 then 0 else Nat.log2 n + 1

/-- Move to the leftmost node of the same height. -/
def jumpLeft (pos : Nat) : Nat := pos - (2 ^ (mostSignificantPos pos - 1) - 1)

/-- Jump left until the position is the root of a perfect tree. -/
def jumpLeftToPerfect : Nat → Nat → Nat
  | 0, pos => pos
  | fuel + 1, pos => if isAllOnes pos then pos else jumpLeftToPerfect fuel (jumpLeft pos)

/-- Postorder height of the node at a position; leaves have height 0. -/
def nodeHeight (pos : Nat) : Nat :=
  if pos = 0 then 0 else mostSignificantPos (jumpLeftToPerfect 64 pos) - 1

/-- Number of set bits among the lower 64. -/
def countOnes (n : Nat) : Nat := ((List.range 64).filter fun i => n.testBit i).length

/-- Peak positions of the perfect trees into which the remaining leaves split, scanning the sizes
`2 ^ (bits - 1), …, 1`; `none` if a position leaves the 64-bit domain. -/
def peakPositionsFrom : (bits remaining posOffset : Nat) → Option (List Nat)
  | 0, _, _ => some []
  | bit + 1, remaining, posOffset =>
    if 2 ^ bit ≤ remaining then
      let peakPos := posOffset + (2 ^ bit - 1 + 2 ^ bit)
      if peakPos < 2 ^ 64 then
        (peakPositionsFrom bit (remaining - 2 ^ bit) peakPos).map (peakPos :: ·)
      else none
    else peakPositionsFrom bit remaining posOffset

/-- Peak positions for a number of leaves, left to right. -/
def peakPositions (leafCount : Nat) : Option (List Nat) := peakPositionsFrom 64 leafCount 0

/-! ## Hashing -/

section

variable [Primitives]

/-- Hash of a leaf at a position. -/
def leafHash (position : Nat) (payload : Bytes) : Hash256 :=
  blake2b256Tagged tagPmmrLeaf (leBytes 8 position ++ payload)

/-- Hash of an inner node at a position. -/
def nodeHash (position : Nat) (left right : Hash256) : Hash256 :=
  blake2b256Tagged tagPmmrNode (leBytes 8 position ++ left.toList ++ right.toList)

/-- Fold peaks from right to left. -/
def bagPeaks (peaks : List Hash256) : Hash256 :=
  match peaks.reverse with
  | [] => blake2b256Tagged tagPmmrEmpty []
  | last :: others =>
    others.foldl (fun acc peak => blake2b256Tagged tagPmmrBag (peak.toList ++ acc.toList)) last

end

/-! ## The accumulator -/

/-- An append-only accumulator: the node hashes by position (position 0 is unused) and the number of
leaves. -/
structure Pmmr where
  nodes : List (Option Hash256)
  leafCount : Nat

namespace Pmmr

/-- The empty accumulator. -/
def new : Pmmr := ⟨[none], 0⟩

/-- The node at a position. -/
def getNode (pmmr : Pmmr) (pos : Nat) : Option Hash256 := (pmmr.nodes[pos]?).join

/-- Place a node hash at a position that holds none. -/
def setNode (pmmr : Pmmr) (pos : Nat) (hash : Hash256) : Result Pmmr := do
  rejectIf (pmmr.nodes.length ≤ pos ∧ 2 ^ 64 ≤ pos + 1) (.internal "node index overflow")
  let nodes := pmmr.nodes ++ List.replicate (pos + 1 - pmmr.nodes.length) none
  rejectIf ((nodes[pos]?).join.isSome) (.internal
    s!"PMMR invariant violated: attempt to overwrite node at position {pos}")
  pure { pmmr with nodes := nodes.set pos (some hash) }

variable [Primitives]

/-- Merge peaks of equal height bottom-up, starting from the node at `pos`. -/
def mergePeaks : (fuel : Nat) → Pmmr → (pos : Nat) → Result Pmmr
  | 0, pmmr, _ => pure pmmr
  | fuel + 1, pmmr, pos =>
    let h := nodeHeight pos
    let subtreeSize := 2 ^ (h + 1) - 1
    if pos ≤ subtreeSize then pure pmmr
    else
      let leftPos := pos - subtreeSize
      if nodeHeight leftPos ≠ h then pure pmmr
      else do
        let parentPos ← okOr (.internal "parent_pos overflow")
          (if pos + 1 < 2 ^ 64 then some (pos + 1) else none)
        let left ← okOr (.internal s!"missing node at {leftPos}") (pmmr.getNode leftPos)
        let right ← okOr (.internal s!"missing node at {pos}") (pmmr.getNode pos)
        let pmmr ← pmmr.setNode parentPos (nodeHash parentPos left right)
        mergePeaks fuel pmmr parentPos

/-- Append a leaf with the given payload. -/
def push (pmmr : Pmmr) (payload : Bytes) : Result Pmmr := do
  rejectIf (2 ^ 64 ≤ pmmr.leafCount + 1) (.internal "PMMR leaf count overflow")
  -- a range of `n` leaves has `2n - popcount n` nodes
  rejectIf (2 ^ 64 ≤ pmmr.leafCount * 2 ∨ pmmr.leafCount * 2 < countOnes pmmr.leafCount)
    (.internal "node count overflow")
  let leafPos := pmmr.leafCount * 2 - countOnes pmmr.leafCount + 1
  rejectIf (2 ^ 64 ≤ leafPos) (.internal "leaf_pos overflow")
  let placed ← pmmr.setNode leafPos (leafHash leafPos payload)
  let merged ← mergePeaks 64 placed leafPos
  pure { merged with leafCount := pmmr.leafCount + 1 }

/-- The root of the accumulator. A peak that is missing, or outside the 64-bit domain, is refused;
the latter aborts the source. -/
def root (pmmr : Pmmr) : Result Hash256 := do
  let positions ← okOr (.internal "PMMR peak positions exceed the u64 position domain")
    (peakPositions pmmr.leafCount)
  let peaks ← positions.mapM fun p => okOr (.internal
    (s!"PMMR invariant violated: missing peak at position {p} (leaf_count={pmmr.leafCount}); " ++
      "refusing to compute root over an incomplete peak set")) (pmmr.getNode p)
  pure (bagPeaks peaks)

/-- The accumulator of one leaf. -/
theorem push_new (payload : Bytes) :
    new.push payload = .ok ⟨[none, some (leafHash 1 payload)], 1⟩ := by
  have hones : countOnes 0 = 0 := by decide +kernel
  have hheight : nodeHeight 1 = 0 := by decide +kernel
  simp [push, new, hones, setNode, mergePeaks, hheight]

/-- **The root over one leaf is its hash.** -/
theorem root_singleton (hash : Hash256) : root ⟨[none, some hash], 1⟩ = .ok hash := by
  have hpeaks : peakPositions 1 = some [1] := by decide +kernel
  simp [root, hpeaks, getNode, bagPeaks]

end Pmmr

end DomProtocol
