import Mathlib

/-! # Groups of bits

A number written in groups of `width` bits, most significant group first, has the value
**`groupsValue`**. Two devices handle such groups one at a time.

* A **shift buffer** changes the width of the groups: `shiftIn` appends a group to an accumulator,
  and groups of another width are taken from the top. A buffer left empty loses nothing:
  `Regrouped.inverse`.
* A **shift register with feedback** computes a checksum. `foldl_registerStep`: the last groups, as
  many as fit in the register, only add their own value to what zero groups would have left. -/

namespace DomProtocol

/-! ## The value of a sequence of groups -/

/-- The number spelled by groups of `width` bits, most significant group first. -/
def groupsValue (width : Nat) (groups : List Nat) : Nat :=
  Nat.ofDigits (2 ^ width) groups.reverse

theorem groupsValue_append_singleton (width : Nat) (groups : List Nat) (group : Nat) :
    groupsValue width (groups ++ [group]) = groupsValue width groups * 2 ^ width + group := by
  rw [groupsValue, groupsValue, List.reverse_append, List.reverse_singleton, List.singleton_append,
    Nat.ofDigits_cons]
  ring

/-- Groups within their width spell a number within the total width. -/
theorem groupsValue_lt {width : Nat} {groups : List Nat} (fits : ∀ g ∈ groups, g < 2 ^ width) :
    groupsValue width groups < 2 ^ (width * groups.length) := by
  induction groups using List.reverseRecOn with
  | nil => simp [groupsValue]
  | append_singleton groups group ih =>
    have hgroup : group < 2 ^ width := fits group (by simp)
    have hrest := ih fun g hg => fits g (List.mem_append_left _ hg)
    rw [groupsValue_append_singleton, List.length_append, List.length_singleton, mul_add, mul_one,
      pow_add]
    calc groupsValue width groups * 2 ^ width + group
        < groupsValue width groups * 2 ^ width + 2 ^ width := by omega
      _ = (groupsValue width groups + 1) * 2 ^ width := by ring
      _ ≤ 2 ^ (width * groups.length) * 2 ^ width := Nat.mul_le_mul_right _ hrest

/-- Equally many groups with the same value are the same groups. -/
theorem groupsValue_inj {width : Nat} (positive : 0 < width) {left right : List Nat}
    (size : left.length = right.length) (hleft : ∀ g ∈ left, g < 2 ^ width)
    (hright : ∀ g ∈ right, g < 2 ^ width)
    (value : groupsValue width left = groupsValue width right) : left = right := by
  have hbase : 1 < 2 ^ width := Nat.one_lt_two_pow (by omega)
  apply List.reverse_injective
  apply Nat.ofDigits_inj_of_len_eq hbase (by simpa using size)
  · simpa using hleft
  · simpa using hright
  · exact value

/-! ## Shift buffers -/

/-- A 32-bit accumulator after a group of `width` bits has been shifted in at the bottom. -/
def shiftIn (width acc group : Nat) : Nat := (acc <<< width) % 2 ^ 32 ||| group

/-- The bits not yet consumed, after a group has been shifted in below them. -/
theorem shiftIn_mod {width acc group bits : Nat} (fits : group < 2 ^ width)
    (room : bits + width ≤ 32) :
    shiftIn width acc group % 2 ^ (bits + width) = acc % 2 ^ bits * 2 ^ width + group := by
  -- only the low `32 - width` bits of the accumulator survive the shift
  have hshift : (acc <<< width) % 2 ^ 32 = (acc % 2 ^ (32 - width)) <<< width := by
    obtain ⟨rest, hrest⟩ : ∃ rest, 32 = rest + width := ⟨32 - width, by omega⟩
    rw [hrest, Nat.shiftLeft_eq, Nat.shiftLeft_eq, pow_add, Nat.mul_mod_mul_right,
      Nat.add_sub_cancel]
  have hbits : acc % 2 ^ (32 - width) % 2 ^ bits = acc % 2 ^ bits :=
    Nat.mod_mod_of_dvd _ (pow_dvd_pow 2 (by omega))
  rw [shiftIn, hshift, ← Nat.shiftLeft_add_eq_or_of_lt fits, Nat.shiftLeft_eq, ← hbits, pow_add]
  generalize acc % 2 ^ (32 - width) = low
  rw [Nat.mul_comm (2 ^ bits), Nat.mod_mul, Nat.mul_comm low, Nat.mul_add_mod,
    Nat.mod_eq_of_lt fits, Nat.mul_add_div (Nat.two_pow_pos width), Nat.div_eq_of_lt fits,
    Nat.add_zero]
  ring

/-- **What a shift buffer keeps.** The groups `input`, of width `wide`, have been shifted in; the
groups `output`, of width `narrow`, have been taken out; the lowest `bits` bits of the accumulator
are still to come. -/
structure Regrouped (wide narrow : Nat) (input output : List Nat) (acc bits : Nat) : Prop where
  value : groupsValue wide input = groupsValue narrow output * 2 ^ bits + acc % 2 ^ bits
  size : wide * input.length = narrow * output.length + bits
  fits : ∀ g ∈ output, g < 2 ^ narrow

namespace Regrouped

variable {wide narrow acc bits group : Nat} {input output : List Nat}

/-- The empty buffer. -/
theorem empty (wide narrow : Nat) : Regrouped wide narrow [] [] 0 0 :=
  ⟨by simp [groupsValue], by simp, by simp⟩

theorem shiftIn (h : Regrouped wide narrow input output acc bits) (fits : group < 2 ^ wide)
    (room : bits + wide ≤ 32) :
    Regrouped wide narrow (input ++ [group]) output (shiftIn wide acc group) (bits + wide) where
  value := by
    rw [groupsValue_append_singleton, h.value, shiftIn_mod fits room, pow_add]
    ring
  size := by
    rw [List.length_append, List.length_singleton, mul_add, h.size]
    ring
  fits := h.fits

theorem shiftOut (h : Regrouped wide narrow input output acc (bits + narrow)) :
    Regrouped wide narrow input (output ++ [(acc >>> bits) % 2 ^ narrow]) acc bits where
  value := by
    rw [groupsValue_append_singleton, h.value, Nat.shiftRight_eq_div_pow, pow_add, Nat.mod_mul]
    ring
  size := by
    rw [List.length_append, List.length_singleton, h.size]
    ring
  fits := by
    intro g hg
    rw [List.mem_append, List.mem_singleton] at hg
    obtain hg | rfl := hg
    · exact h.fits g hg
    · exact Nat.mod_lt _ (Nat.two_pow_pos narrow)

/-- **A change of width is undone by the change back**, when neither leaves bits behind. -/
theorem inverse {back : List Nat} {acc' : Nat} (positive : 0 < wide)
    (there : Regrouped wide narrow input output acc 0)
    (backAgain : Regrouped narrow wide output back acc' 0) (fits : ∀ g ∈ input, g < 2 ^ wide) :
    back = input := by
  have hsize : wide * back.length = wide * input.length := by
    rw [there.size, Nat.add_zero, ← Nat.add_zero (wide * back.length), ← backAgain.size]
  apply groupsValue_inj positive (Nat.eq_of_mul_eq_mul_left positive hsize) backAgain.fits fits
  have hthere := there.value
  have hback := backAgain.value
  simp only [pow_zero, mul_one, Nat.mod_one, Nat.add_zero] at hthere hback
  rw [← hback, ← hthere]

end Regrouped

/-! ## Shift registers with feedback -/

section Register

variable (width low : Nat) (feedback : Nat → Nat)

/-- One step of a register of `low + width` bits: the group enters at the bottom, the top `width`
bits leave and are fed back. -/
def registerStep (register group : Nat) : Nat :=
  ((register % 2 ^ low) <<< width ^^^ group) ^^^ feedback (register >>> low)

variable {width low feedback}

/-- A group shifted below others adds to their value. -/
theorem shiftLeft_xor_eq_add {above group : Nat} (fits : group < 2 ^ width) :
    above <<< width ^^^ group = above * 2 ^ width + group := by
  rw [Nat.mul_comm]
  apply Nat.eq_of_testBit_eq
  intro j
  rw [Nat.testBit_two_pow_mul_add _ fits, Nat.testBit_xor, Nat.testBit_shiftLeft]
  by_cases hj : j < width
  · simp [hj, Nat.not_le.mpr hj]
  · -- beyond its width the group has no bits
    have hgroup : group.testBit j = false :=
      Nat.testBit_lt_two_pow (fits.trans_le (Nat.pow_le_pow_right (by decide) (by omega)))
    simp [hj, hgroup, Nat.not_lt.mp hj]

/-- Bits that do not reach the top of the register pass through a step unchanged, one group
higher. -/
theorem registerStep_xor {register pending group : Nat} (room : pending < 2 ^ low) :
    registerStep width low feedback (register ^^^ pending) group =
      registerStep width low feedback register 0 ^^^ (pending <<< width ^^^ group) := by
  have htop : (register ^^^ pending) >>> low = register >>> low := by
    rw [Nat.shiftRight_xor_distrib, Nat.shiftRight_eq_div_pow pending, Nat.div_eq_of_lt room,
      Nat.xor_zero]
  have hlow : (register ^^^ pending) % 2 ^ low = register % 2 ^ low ^^^ pending := by
    rw [Nat.xor_mod_two_pow, Nat.mod_eq_of_lt room]
  simp only [registerStep, htop, hlow, Nat.shiftLeft_xor_distrib, Nat.xor_zero]
  ac_rfl

/-- **The last groups only add their value**: as long as they fit in the register, none of them has
reached the feedback. -/
theorem foldl_registerStep {register : Nat} {groups : List Nat}
    (fits : ∀ g ∈ groups, g < 2 ^ width) (room : width * groups.length ≤ low + width) :
    groups.foldl (registerStep width low feedback) register =
      (List.replicate groups.length 0).foldl (registerStep width low feedback) register ^^^
        groupsValue width groups := by
  induction groups using List.reverseRecOn with
  | nil => simp [groupsValue]
  | append_singleton groups group ih =>
    have hgroups : ∀ g ∈ groups, g < 2 ^ width := fun g hg => fits g (List.mem_append_left _ hg)
    have hgroup : group < 2 ^ width := fits group (by simp)
    rw [List.length_append, List.length_singleton, mul_add, mul_one] at room
    have hvalue : groupsValue width groups < 2 ^ low :=
      (groupsValue_lt hgroups).trans_le (Nat.pow_le_pow_right (by decide) (by omega))
    rw [List.foldl_append, ih hgroups (by omega), List.length_append, List.length_singleton,
      List.replicate_succ', List.foldl_append, groupsValue_append_singleton,
      ← shiftLeft_xor_eq_add hgroup]
    exact registerStep_xor hvalue

/-- A register stays within its width. -/
theorem registerStep_lt {register group : Nat} (hgroup : group < 2 ^ (low + width))
    (hfeedback : feedback (register >>> low) < 2 ^ (low + width)) :
    registerStep width low feedback register group < 2 ^ (low + width) := by
  have hshift : (register % 2 ^ low) <<< width < 2 ^ (low + width) := by
    rw [Nat.shiftLeft_eq, pow_add]
    exact Nat.mul_lt_mul_of_pos_right (Nat.mod_lt _ (Nat.two_pow_pos low)) (Nat.two_pow_pos width)
  exact Nat.xor_lt_two_pow (Nat.xor_lt_two_pow hshift hgroup) hfeedback

variable {register left right : Nat} {groups window window' : List Nat}

theorem foldl_registerStep_lt (bounded : ∀ top, feedback top < 2 ^ (low + width))
    (fits : ∀ g ∈ groups, g < 2 ^ (low + width)) (hregister : register < 2 ^ (low + width)) :
    groups.foldl (registerStep width low feedback) register < 2 ^ (low + width) := by
  refine List.foldlRecOn (motive := fun chk => chk < 2 ^ (low + width)) groups _ hregister ?_
  intro chk _ g hg
  exact registerStep_lt (fits g hg) (bounded _)

section Undo

variable (telling : ∀ a < 2 ^ width, ∀ b < 2 ^ width,
  feedback a % 2 ^ width = feedback b % 2 ^ width → a = b)
include telling

/-- **A step can be undone** if the lowest bits of the feedback tell what was fed back: the shift
leaves nothing else there but the group. -/
theorem registerStep_inj {group : Nat} (hleft : left < 2 ^ (low + width))
    (hright : right < 2 ^ (low + width))
    (same : registerStep width low feedback left group =
      registerStep width low feedback right group) : left = right := by
  have hbottom : ∀ register, registerStep width low feedback register group % 2 ^ width =
      group % 2 ^ width ^^^ feedback (register >>> low) % 2 ^ width := by
    intro register
    rw [registerStep, Nat.xor_mod_two_pow, Nat.xor_mod_two_pow, Nat.shiftLeft_eq,
      Nat.mul_mod_left, Nat.zero_xor]
  have hshift : ∀ register < 2 ^ (low + width), register >>> low < 2 ^ width := by
    intro register h
    rw [Nat.shiftRight_eq_div_pow]
    exact Nat.div_lt_of_lt_mul (by rwa [← pow_add])
  have htop : left >>> low = right >>> low := by
    refine telling _ (hshift left hleft) _ (hshift right hright) ?_
    have hmod := congrArg (· % 2 ^ width) same
    simpa only [hbottom, Nat.xor_right_inj] using hmod
  rw [registerStep, registerStep, htop, Nat.xor_left_inj, Nat.xor_left_inj, Nat.shiftLeft_eq,
    Nat.shiftLeft_eq, Nat.mul_left_inj (Nat.two_pow_pos width).ne'] at same
  rw [Nat.shiftRight_eq_div_pow, Nat.shiftRight_eq_div_pow] at htop
  rw [← Nat.div_add_mod left (2 ^ low), htop, same, Nat.div_add_mod]

variable (bounded : ∀ top, feedback top < 2 ^ (low + width))
include bounded

theorem foldl_registerStep_inj (fits : ∀ g ∈ groups, g < 2 ^ (low + width))
    (hleft : left < 2 ^ (low + width)) (hright : right < 2 ^ (low + width))
    (same : groups.foldl (registerStep width low feedback) left =
      groups.foldl (registerStep width low feedback) right) : left = right := by
  induction groups generalizing left right with
  | nil => exact same
  | cons g groups ih =>
    rw [List.forall_mem_cons] at fits
    exact registerStep_inj telling hleft hright (ih fits.2
      (registerStep_lt fits.1 (bounded _)) (registerStep_lt fits.1 (bounded _)) same)

/-- **Groups that fit in the register cannot change unnoticed**, whatever comes after them. -/
theorem window_eq_of_foldl_registerStep (positive : 0 < width)
    (hregister : register < 2 ^ (low + width)) (size : window.length = window'.length)
    (room : width * window.length ≤ low + width) (hwindow : ∀ g ∈ window, g < 2 ^ width)
    (hwindow' : ∀ g ∈ window', g < 2 ^ width) (hgroups : ∀ g ∈ groups, g < 2 ^ (low + width))
    (same : groups.foldl (registerStep width low feedback)
        (window.foldl (registerStep width low feedback) register) =
      groups.foldl (registerStep width low feedback)
        (window'.foldl (registerStep width low feedback) register)) :
    window = window' := by
  have hwide : ∀ {window : List Nat}, (∀ g ∈ window, g < 2 ^ width) →
      ∀ g ∈ window, g < 2 ^ (low + width) := fun h g hg =>
    (h g hg).trans_le (Nat.pow_le_pow_right (by decide) (Nat.le_add_left _ _))
  have hend := foldl_registerStep_inj telling bounded hgroups
    (foldl_registerStep_lt bounded (hwide hwindow) hregister)
    (foldl_registerStep_lt bounded (hwide hwindow') hregister) same
  rw [foldl_registerStep hwindow room, foldl_registerStep hwindow' (by rwa [← size]), size,
    Nat.xor_right_inj] at hend
  exact groupsValue_inj positive size hwindow hwindow' hend

end Undo

end Register

end DomProtocol
