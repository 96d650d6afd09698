import DomProtocol.Lib.Octets
import DomProtocol.Lib.Checked

/-! # Laws of cursor parsers

A parser over a byte source is a computation `StateT σ (Except ε) α`, where `σ` is the state of a
cursor. All that the laws below need to know of the cursor is the string still in front of it.

* **`Parses C p R`** is the specification of a parser by a relation `R a bs`, read "`bs` is an
  encoding of `a`". The parser is **sound**: whatever it returns was encoded by the octets it moved
  over; and **complete**: in front of an encoding of `a` it returns `a` and moves over exactly that
  encoding.
* The rules `Parses.pure`, `Parses.bind`, `Parses.lift`, `Parses.field`, `Parses.readItems` compose
  such specifications along the structure of a monadic parser.
* `Writes p bs` is the corresponding statement for a writer that appends to a buffer, and
  `PrefixCode V e` says that an encoding can be told from what follows it.

A cursor whose arithmetic may overflow is sound everywhere, but complete only over a source short
enough, so a `Cursor` carries one invariant for each. -/

namespace DomProtocol

variable {σ ε : Type} {α β γ : Type}

/-- **A byte cursor**: the string in front of it, the invariant `Sound` under which its movements
are faithful, and the invariant `Ready` under which it moves whenever there is enough input. -/
structure Cursor (σ : Type) where
  rest : σ → Bytes
  Sound : σ → Prop
  Ready : σ → Prop

/-- Read a fixed number of items, in order. -/
def readItems (p : StateT σ (Except ε) α) : Nat → StateT σ (Except ε) (List α)
  | 0 => Pure.pure []
  | count + 1 => do
    let item ← p
    let items ← readItems p count
    Pure.pure (item :: items)

/-- Use the result of a computation that reads nothing. -/
def liftExcept (r : Except ε α) : StateT σ (Except ε) α := fun s =>
  match r with
  | .ok a => .ok (a, s)
  | .error e => .error e

/-- **Specification of a parser** by the relation `R a bs` between values and their encodings. -/
structure Parses (C : Cursor σ) (p : StateT σ (Except ε) α) (R : α → Bytes → Prop) : Prop where
  sound : ∀ {s a s'}, C.Sound s → p s = .ok (a, s') →
    ∃ bs, R a bs ∧ C.rest s = bs ++ C.rest s' ∧ C.Sound s'
  complete : ∀ {s a bs tail}, C.Ready s → R a bs → C.rest s = bs ++ tail →
    ∃ s', p s = .ok (a, s') ∧ C.rest s' = tail ∧ C.Ready s'

namespace Parses

variable {C : Cursor σ} {p : StateT σ (Except ε) α} {R S : α → Bytes → Prop}

variable {k : α → StateT σ (Except ε) β} {P W : β → Prop} {rest : β → Bytes}

/-- A specification may be replaced by an equivalent relation. -/
theorem congr (spec : Parses C p R) (equivalent : ∀ a bs, R a bs ↔ S a bs) : Parses C p S where
  sound hs hp := by
    obtain ⟨bs, hR, hrest⟩ := spec.sound hs hp
    exact ⟨bs, (equivalent _ _).mp hR, hrest⟩
  complete hs hS hrest := spec.complete hs ((equivalent _ _).mpr hS) hrest

/-- Returning a value reads nothing. -/
theorem pure (a : α) :
    Parses C (Pure.pure a : StateT σ (Except ε) α) (fun b bs => b = a ∧ bs = []) where
  sound hs hp := by
    cases hp
    exact ⟨[], ⟨rfl, rfl⟩, rfl, hs⟩
  complete hs hR hrest := by
    obtain ⟨rfl, rfl⟩ := hR
    exact ⟨_, rfl, hrest, hs⟩

/-- **Sequencing** concatenates the encodings. -/
theorem bind {T : α → β → Bytes → Prop} (first : Parses C p R) (next : ∀ a, Parses C (k a) (T a)) :
    Parses C (p >>= k) (fun b bs => ∃ a front back, R a front ∧ T a b back ∧ bs = front ++ back) where
  sound {s b s'} hs hp := by
    rcases hfirst : p s with e | ⟨a, mid⟩
    · simp [Bind.bind, StateT.bind, hfirst, Except.bind] at hp
    · have hnext : k a mid = .ok (b, s') := by
        simpa [Bind.bind, StateT.bind, hfirst, Except.bind] using hp
      obtain ⟨front, hR, hfront, hmid⟩ := first.sound hs hfirst
      obtain ⟨back, hT, hback, hs'⟩ := (next a).sound hmid hnext
      exact ⟨front ++ back, ⟨a, front, back, hR, hT, rfl⟩,
        by rw [hfront, hback, List.append_assoc], hs'⟩
  complete {s b bs tail} hs hbs hrest := by
    obtain ⟨a, front, back, hR, hT, rfl⟩ := hbs
    obtain ⟨mid, hfirst, hmid, hready⟩ :=
      first.complete hs hR (hrest.trans (List.append_assoc ..))
    obtain ⟨s', hnext, htail, hs'⟩ := (next a).complete hready hT hmid
    refine ⟨s', ?_, htail, hs'⟩
    simp [Bind.bind, StateT.bind, hfirst, Except.bind, hnext]

/-- A conversion that may fail reads nothing and returns what it accepts. -/
theorem lift (r : Except ε α) :
    Parses C (liftExcept r) (fun a bs => r = .ok a ∧ bs = []) where
  sound {s a s'} hs hp := by
    cases hr : r with
    | error e => simp [liftExcept, hr] at hp
    | ok b =>
      simp only [liftExcept, hr, Except.ok.injEq, Prod.mk.injEq] at hp
      obtain ⟨rfl, rfl⟩ := hp
      exact ⟨[], ⟨rfl, rfl⟩, rfl, hs⟩
  complete hs hR hrest := by
    obtain ⟨rfl, rfl⟩ := hR
    exact ⟨_, rfl, hrest, hs⟩

/-- **A conversion after reading**: the last step reads nothing and determines what was read. -/
theorem last {V : α → Prop} {e : α → Bytes} {T : α → β → Prop} {g : β → α}
    (first : Parses C p (fun a bs => V a ∧ bs = e a))
    (next : ∀ a, Parses C (k a) (fun b bs => T a b ∧ bs = []))
    (inverse : ∀ a b, V a ∧ T a b ↔ W b ∧ a = g b) :
    Parses C (p >>= k) (fun b bs => W b ∧ bs = e (g b)) := by
  refine (first.bind next).congr fun b bs => ?_
  constructor
  · rintro ⟨a, _, _, ⟨hV, rfl⟩, ⟨hT, rfl⟩, rfl⟩
    obtain ⟨hW, rfl⟩ := (inverse a b).mp ⟨hV, hT⟩
    exact ⟨hW, List.append_nil _⟩
  · rintro ⟨hW, rfl⟩
    obtain ⟨hV, hT⟩ := (inverse (g b) b).mpr ⟨hW, rfl⟩
    exact ⟨g b, _, [], ⟨hV, rfl⟩, ⟨hT, rfl⟩, (List.append_nil _).symm⟩

/-- A value read and then converted by a one-to-one map. -/
theorem map {V : α → Prop} {e : α → Bytes} (f : α → β) (g : β → α)
    (spec : Parses C p (fun a bs => V a ∧ bs = e a)) (valid : ∀ b, V (g b)) (left : ∀ b, f (g b) = b)
    (right : ∀ a, V a → g (f a) = a) :
    Parses C (p >>= fun a => Pure.pure (f a)) (fun b bs => True ∧ bs = e (g b)) := by
  refine spec.last (fun a => Parses.pure (f a)) fun a b => ?_
  constructor
  · rintro ⟨hV, rfl⟩
    exact ⟨trivial, (right a hV).symm⟩
  · rintro ⟨-, rfl⟩
    exact ⟨valid b, (left b).symm⟩

/-! ## Records

A record is parsed field by field. In the rules below `get` is the projection to the field being
read, `P` collects what is already known of the record (its earlier fields), and `rest` is the
encoding of the later fields. -/

/-- **Reading one field of a record**, then the later ones. -/
theorem field {V : α → Prop} {e : α → Bytes} (get : β → α)
    (first : Parses C p (fun a bs => V a ∧ bs = e a))
    (next : ∀ a, Parses C (k a) (fun b bs => (P b ∧ get b = a) ∧ W b ∧ bs = rest b)) :
    Parses C (p >>= k) (fun b bs => P b ∧ (V (get b) ∧ W b) ∧ bs = e (get b) ++ rest b) := by
  refine (first.bind next).congr fun b bs => ?_
  constructor
  · rintro ⟨_, _, _, ⟨hV, rfl⟩, ⟨⟨hP, rfl⟩, hW, rfl⟩, rfl⟩
    exact ⟨hP, ⟨hV, hW⟩, rfl⟩
  · rintro ⟨hP, ⟨hV, hW⟩, rfl⟩
    exact ⟨get b, _, _, ⟨hV, rfl⟩, ⟨⟨hP, rfl⟩, hW, rfl⟩, rfl⟩

/-- **A check between two fields**, of a condition on the fields already read. -/
theorem check {k : Unit → StateT σ (Except ε) β} {c : Prop} [Decidable c] {e : ε} (Q : β → Prop)
    (means : ∀ b, P b → (Q b ↔ ¬ c))
    (next : Parses C (k ()) (fun b bs => P b ∧ W b ∧ bs = rest b)) :
    Parses C (liftExcept (rejectIf c e) >>= k) (fun b bs => P b ∧ (Q b ∧ W b) ∧ bs = rest b) := by
  refine ((Parses.lift (rejectIf c e)).bind fun _ => next).congr fun b bs => ?_
  constructor
  · rintro ⟨_, _, _, ⟨hcheck, rfl⟩, ⟨hP, hW, rfl⟩, rfl⟩
    exact ⟨hP, ⟨(means b hP).mpr (rejectIf_eq_ok.mp hcheck), hW⟩, rfl⟩
  · rintro ⟨hP, ⟨hQ, hW⟩, rfl⟩
    exact ⟨(), [], _, ⟨rejectIf_eq_ok.mpr ((means b hP).mp hQ), rfl⟩, ⟨hP, hW, rfl⟩, rfl⟩

/-- **Building the record** once every field is known. -/
theorem record {b : β} (known : ∀ b', b' = b ↔ P b') :
    Parses C (Pure.pure b : StateT σ (Except ε) β) (fun b' bs => P b' ∧ True ∧ bs = []) :=
  (Parses.pure b).congr fun b' bs => by rw [known b', true_and]

/-! ## Runs of items -/

/-- **What is read behind its length**: the length is checked, and then so much is read. -/
theorem lengthFirst {γ : Type} {size : StateT σ (Except ε) UInt32} {number : Nat → Bytes}
    {n : γ → Nat} {V : γ → Prop} {e : γ → Bytes} {maxLen : Nat} {check : UInt32 → Except ε Unit}
    {body : UInt32 → StateT σ (Except ε) γ}
    (first : Parses C size (fun len bs => True ∧ bs = number len.toNat)) (small : maxLen < 2 ^ 32)
    (checks : ∀ len, check len = .ok () ↔ len.toNat ≤ maxLen)
    (each : ∀ len, Parses C (body len) (fun c bs => (n c = len.toNat ∧ V c) ∧ bs = e c)) :
    Parses C (do let len ← size; liftExcept (check len); body len)
      (fun c bs => (n c ≤ maxLen ∧ V c) ∧ bs = number (n c) ++ e c) := by
  refine (first.bind fun len => (Parses.lift _).bind fun _ => each len).congr fun c bs => ?_
  constructor
  · rintro ⟨len, _, _, ⟨_, rfl⟩, ⟨_, _, _, ⟨hmax, rfl⟩, ⟨⟨hlen, hv⟩, rfl⟩, rfl⟩, rfl⟩
    rw [hlen]
    exact ⟨⟨(checks len).mp hmax, hv⟩, rfl⟩
  · rintro ⟨⟨hmax, hv⟩, rfl⟩
    have hlen : (UInt32.ofNat (n c)).toNat = n c :=
      UInt32.toNat_ofNat_of_lt' (hmax.trans_lt small)
    refine ⟨UInt32.ofNat (n c), _, _, ⟨trivial, rfl⟩, ⟨(), [], _, ⟨(checks _).mpr ?_, rfl⟩,
      ⟨⟨hlen.symm, hv⟩, rfl⟩, rfl⟩, by rw [hlen, List.nil_append]⟩
    rwa [hlen]

/-- **Reading `count` items** parses the concatenated encodings of lists of that length. -/
theorem readItems {V : α → Prop} {encode : α → Bytes}
    (spec : Parses C p (fun a bs => V a ∧ bs = encode a)) (count : Nat) :
    Parses C (DomProtocol.readItems p count) (fun items bs =>
      (items.length = count ∧ ∀ a ∈ items, V a) ∧ bs = items.flatMap encode) := by
  induction count with
  | zero =>
    refine (Parses.pure []).congr fun items bs => ?_
    constructor
    · rintro ⟨rfl, rfl⟩
      exact ⟨⟨rfl, nofun⟩, rfl⟩
    · rintro ⟨⟨hlen, -⟩, rfl⟩
      obtain rfl := List.length_eq_zero_iff.mp hlen
      exact ⟨rfl, rfl⟩
  | succ count ih =>
    refine (spec.bind fun item => ih.bind fun items => Parses.pure (item :: items)).congr
      fun items bs => ?_
    constructor
    · rintro ⟨item, _, _, ⟨hitem, rfl⟩, ⟨tail, _, _, ⟨⟨hlen, hall⟩, rfl⟩, ⟨rfl, rfl⟩, rfl⟩, rfl⟩
      rw [List.append_nil, List.length_cons, hlen]
      exact ⟨⟨rfl, List.forall_mem_cons.mpr ⟨hitem, hall⟩⟩, (List.flatMap_cons ..).symm⟩
    · rintro ⟨⟨hlen, hall⟩, rfl⟩
      obtain ⟨item, items, rfl⟩ := List.exists_cons_of_length_eq_add_one hlen
      obtain ⟨hitem, hall⟩ := List.forall_mem_cons.mp hall
      exact ⟨item, _, _, ⟨hitem, rfl⟩, ⟨items, _, [], ⟨⟨by simpa using hlen, hall⟩, rfl⟩, ⟨rfl, rfl⟩,
        (List.append_nil _).symm⟩, List.flatMap_cons ..⟩

end Parses

/-! ## Writers -/

/-- **Specification of a writer**: it succeeds exactly when `V` holds, and then appends `bs` to
whatever has been written so far. -/
def Writes (p : Bytes → Except ε Bytes) (V : Prop) (bs : Bytes) : Prop :=
  ∀ buffer buffer', p buffer = .ok buffer' ↔ V ∧ buffer' = buffer ++ bs

namespace Writes

variable {p q : Bytes → Except ε Bytes} {V W : Prop} {front back : Bytes}

/-- A writer that cannot fail. -/
theorem of_ok (h : ∀ buffer, p buffer = .ok (buffer ++ front)) : Writes p True front := by
  intro buffer buffer'
  rw [h buffer, Except.ok.injEq, true_and]
  exact eq_comm

/-- Consecutive writes append their strings in order. -/
theorem bind (first : Writes p V front) (second : Writes q W back) :
    Writes (fun buffer => p buffer >>= q) (V ∧ W) (front ++ back) := by
  intro buffer buffer'
  simp only [bind_eq_ok, first buffer, second _ buffer']
  constructor
  · rintro ⟨_, ⟨hV, rfl⟩, hW, rfl⟩
    exact ⟨⟨hV, hW⟩, List.append_assoc ..⟩
  · rintro ⟨⟨hV, hW⟩, rfl⟩
    exact ⟨_, ⟨hV, rfl⟩, hW, (List.append_assoc ..).symm⟩

/-- Writing the items of a list one after another appends their encodings in order. -/
theorem foldlM {write : α → Bytes → Except ε Bytes} {V : α → Prop} {encode : α → Bytes}
    (each : ∀ a, Writes (write a) (V a) (encode a)) (items : List α) :
    Writes (fun buffer => items.foldlM (fun acc item => write item acc) buffer)
      (∀ a ∈ items, V a) (items.flatMap encode) := by
  intro buffer buffer'
  induction items generalizing buffer with
  | nil =>
    simp only [List.foldlM_nil, List.not_mem_nil, false_imp_iff, implies_true, true_and,
      List.flatMap_nil, List.append_nil]
    exact pure_eq_ok.trans eq_comm
  | cons item items ih =>
    simp only [List.foldlM_cons, bind_eq_ok, each item buffer, ih, List.forall_mem_cons,
      List.flatMap_cons]
    constructor
    · rintro ⟨_, ⟨hitem, rfl⟩, hitems, rfl⟩
      exact ⟨⟨hitem, hitems⟩, List.append_assoc ..⟩
    · rintro ⟨⟨hitem, hitems⟩, rfl⟩
      exact ⟨_, ⟨hitem, rfl⟩, hitems, (List.append_assoc ..).symm⟩

end Writes

/-! ## Prefix codes -/

/-- **A prefix code**: from the encoding of a value with anything behind it, the value and what is
behind it can be recovered. -/
def PrefixCode (V : α → Prop) (e : α → Bytes) : Prop :=
  ∀ ⦃a b s t⦄, V a → V b → e a ++ s = e b ++ t → a = b ∧ s = t

/-- Items of at least `least` octets each. -/
theorem mul_le_length_flatMap {e : α → Bytes} {least : Nat} {items : List α}
    (bound : ∀ a ∈ items, least ≤ (e a).length) :
    items.length * least ≤ (items.flatMap e).length := by
  induction items with
  | nil => simp
  | cons item items ih =>
    obtain ⟨first, others⟩ := List.forall_mem_cons.mp bound
    have rest := ih others
    rw [List.length_cons, List.flatMap_cons, List.length_append, Nat.succ_mul]
    omega

namespace PrefixCode

variable {V : α → Prop} {e : α → Bytes}

/-- An injective encoding of constant length is a prefix code. -/
theorem of_fixed {n : Nat} (size : ∀ a, V a → (e a).length = n)
    (inj : ∀ a b, V a → V b → e a = e b → a = b) : PrefixCode V e := by
  intro a b s t ha hb h
  obtain ⟨hab, hst⟩ := List.append_inj h ((size a ha).trans (size b hb).symm)
  exact ⟨inj a b ha hb hab, hst⟩

/-- The concatenated encodings of a known number of items determine the items. -/
theorem flatMap (code : PrefixCode V e) {xs ys : List α} {s t : Bytes}
    (size : xs.length = ys.length) (hxs : ∀ a ∈ xs, V a) (hys : ∀ a ∈ ys, V a)
    (h : xs.flatMap e ++ s = ys.flatMap e ++ t) : xs = ys ∧ s = t := by
  induction xs generalizing ys with
  | nil =>
    obtain rfl := List.length_eq_zero_iff.mp size.symm
    exact ⟨rfl, h⟩
  | cons x xs ih =>
    cases ys with
    | nil => simp at size
    | cons y ys =>
      obtain ⟨hx, hxs'⟩ := List.forall_mem_cons.mp hxs
      obtain ⟨hy, hys'⟩ := List.forall_mem_cons.mp hys
      rw [List.flatMap_cons, List.flatMap_cons, List.append_assoc, List.append_assoc] at h
      obtain ⟨rfl, hrest⟩ := code hx hy h
      obtain ⟨rfl, hst⟩ := ih (by simpa using size) hxs' hys' hrest
      exact ⟨rfl, hst⟩

/-- The encoding alone determines the value. -/
theorem injective (code : PrefixCode V e) {a b : α} (ha : V a) (hb : V b) (h : e a = e b) : a = b :=
  (code (s := []) ha hb (by rw [h])).1

end PrefixCode

end DomProtocol
