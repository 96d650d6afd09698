import DomProtocol.Lib.Table

/-! # Ledgers with undo

A ledger is a partial map from keys to entries. A block acts on it through an **`Effect`**: it
spends keys and creates entries, under the condition that what it spends is there and what it
creates is new (**`Effect.Fits`**). Whether effects fit depends on the keys only (`SameDomain`).

The last effects of a run can be undone from the back: created keys are dropped and spent keys are
put back with an entry found elsewhere. **`undoAll_eq`** says what is left: the keys before the
undone effects, but a key that was spent in between holds the entry that was put back
(**`rehome`**). -/

namespace DomProtocol

variable {κ υ : Type} [DecidableEq κ]

/-- What a block does to a ledger. -/
structure Effect (κ υ : Type) where
  spends : List κ
  creates : List (κ × υ)

namespace Effect

variable {e : Effect κ υ} {k : κ} {ledger : κ → Option υ}

/-- The keys an effect creates. -/
def created (e : Effect κ υ) : List κ := e.creates.map Prod.fst

/-- No key is spent twice, created twice, or both spent and created. -/
structure WellFormed (e : Effect κ υ) : Prop where
  spendsNodup : e.spends.Nodup
  createdNodup : e.created.Nodup
  disjoint : ∀ k ∈ e.spends, k ∉ e.created

/-- The ledger after an effect. -/
def apply (e : Effect κ υ) (ledger : κ → Option υ) : κ → Option υ := fun k =>
  if k ∈ e.spends then none else (e.creates.lookup k).or (ledger k)

/-- An effect fits a ledger that has what it spends and not what it creates. -/
structure Fits (e : Effect κ υ) (ledger : κ → Option υ) : Prop where
  spendsPresent : ∀ k ∈ e.spends, ledger k ≠ none
  createdNew : ∀ k ∈ e.created, ledger k = none

/-- Undo an effect, putting back what it spent. -/
def undo (restored : κ → υ) (e : Effect κ υ) (ledger : κ → Option υ) : κ → Option υ := fun k =>
  if k ∈ e.spends then some (restored k)
  else if k ∈ e.created then none
  else ledger k

theorem lookup_creates_eq_none : e.creates.lookup k = none ↔ k ∉ e.created := Table.lookup_eq_none

theorem apply_of_spent (spent : k ∈ e.spends) : e.apply ledger k = none := if_pos spent

theorem apply_of_not_spent
    (unspent : k ∉ e.spends) : e.apply ledger k = (e.creates.lookup k).or (ledger k) :=
  if_neg unspent

theorem apply_of_untouched
    (unspent : k ∉ e.spends) (uncreated : k ∉ e.created) : e.apply ledger k = ledger k := by
  rw [apply_of_not_spent unspent, lookup_creates_eq_none.mpr uncreated, Option.none_or]

theorem apply_of_created (wf : e.WellFormed)
    (created : k ∈ e.created) : e.apply ledger k = e.creates.lookup k := by
  have hunspent : k ∉ e.spends := fun hspent => wf.disjoint k hspent created
  have hsome : e.creates.lookup k ≠ none := fun h => lookup_creates_eq_none.mp h created
  obtain ⟨v, hv⟩ := Option.ne_none_iff_exists'.mp hsome
  rw [apply_of_not_spent hunspent, hv, Option.some_or]

end Effect

open Effect (apply_of_not_spent apply_of_spent apply_of_untouched lookup_creates_eq_none)

namespace Ledger

variable {front back : List (Effect κ υ)} {ledger other : κ → Option υ} {e : Effect κ υ}
  {effects : List (Effect κ υ)} {k : κ} {v : υ} {before after : κ → Option υ}
  {parts : List (Effect κ υ)}

/-! ## Runs -/

/-- The ledger after effects in order. -/
def run (effects : List (Effect κ υ)) (ledger : κ → Option υ) : κ → Option υ :=
  effects.foldl (fun ledger e => e.apply ledger) ledger

/-- Each effect fits the ledger it meets. -/
def FitsAll : (effects : List (Effect κ υ)) → (ledger : κ → Option υ) → Prop
  | [], _ => True
  | e :: effects, ledger => e.Fits ledger ∧ FitsAll effects (e.apply ledger)

/-- The ledger with no entries. -/
def empty : κ → Option υ := fun _ => none

@[simp] theorem run_nil (ledger : κ → Option υ) : run [] ledger = ledger := rfl

@[simp] theorem run_cons (e : Effect κ υ) (effects : List (Effect κ υ)) (ledger : κ → Option υ) :
    run (e :: effects) ledger = run effects (e.apply ledger) := rfl

theorem run_append (front back : List (Effect κ υ)) (ledger : κ → Option υ) :
    run (front ++ back) ledger = run back (run front ledger) := List.foldl_append

theorem fitsAll_append :
    FitsAll (front ++ back) ledger ↔ FitsAll front ledger ∧ FitsAll back (run front ledger) := by
  induction front generalizing ledger with
  | nil => simp [FitsAll]
  | cons e front ih =>
    rw [List.cons_append, FitsAll, FitsAll, ih, run_cons, and_assoc]

/-! ## Equal key sets -/

/-- Two ledgers hold the same keys. -/
def SameDomain (ledger other : κ → Option υ) : Prop := ∀ k, ledger k = none ↔ other k = none

omit [DecidableEq κ] in
theorem SameDomain.refl (ledger : κ → Option υ) : SameDomain ledger ledger := fun _ => Iff.rfl

section

variable (same : SameDomain ledger other)
include same

omit [DecidableEq κ] in
theorem SameDomain.symm : SameDomain other ledger := fun k => (same k).symm

omit [DecidableEq κ] in
theorem SameDomain.fits (fits : e.Fits ledger) : e.Fits other :=
  ⟨fun k hk h => fits.spendsPresent k hk ((same k).mpr h),
    fun k hk => (same k).mp (fits.createdNew k hk)⟩

theorem SameDomain.apply (e : Effect κ υ) : SameDomain (e.apply ledger) (e.apply other) := by
  intro k
  unfold Effect.apply
  split
  · exact Iff.rfl
  · rw [Option.or_eq_none_iff, Option.or_eq_none_iff, same k]

theorem SameDomain.run (effects : List (Effect κ υ)) :
    SameDomain (Ledger.run effects ledger) (Ledger.run effects other) := by
  induction effects generalizing ledger other with
  | nil => exact same
  | cons e effects ih => exact ih (same.apply e)

theorem SameDomain.fitsAll (fits : FitsAll effects ledger) : FitsAll effects other := by
  induction effects generalizing ledger other with
  | nil => trivial
  | cons e effects ih => exact ⟨same.fits fits.1, ih (same.apply e) fits.2⟩

end

/-! ## Creations -/

/-- The first creation of a key. -/
def firstCreation (effects : List (Effect κ υ)) (k : κ) : Option υ :=
  effects.findSome? fun e => e.creates.lookup k

/-- The last creation of a key. -/
def lastCreation (effects : List (Effect κ υ)) (k : κ) : Option υ :=
  firstCreation effects.reverse k

theorem firstCreation_eq_none : firstCreation effects k = none ↔ ∀ e ∈ effects, k ∉ e.created := by
  simp only [firstCreation, List.findSome?_eq_none_iff, lookup_creates_eq_none]

theorem lastCreation_concat (effects : List (Effect κ υ)) (e : Effect κ υ) (k : κ) :
    lastCreation (effects ++ [e]) k = (e.creates.lookup k).or (lastCreation effects k) := by
  simp only [lastCreation, firstCreation, List.reverse_append, List.reverse_singleton,
    List.singleton_append, List.findSome?_cons]
  cases e.creates.lookup k <;> rfl

/-- **An entry of the ledger is the last one created under its key.** -/
theorem lastCreation_of_run
    (entry : run effects empty k = some v) : lastCreation effects k = some v := by
  induction effects using List.reverseRecOn with
  | nil => cases entry
  | append_singleton effects e ih =>
    rw [run_append, run_cons, run_nil] at entry
    rw [lastCreation_concat]
    by_cases hspent : k ∈ e.spends
    · rw [apply_of_spent hspent] at entry
      cases entry
    · rw [apply_of_not_spent hspent] at entry
      cases hlookup : e.creates.lookup k with
      | some w =>
        rw [hlookup, Option.some_or] at entry
        rw [Option.some_or, entry]
      | none =>
        rw [hlookup, Option.none_or] at entry
        rw [Option.none_or, ih entry]

/-- A key that is never created does not appear. -/
theorem run_eq_none (absent : ledger k = none) (uncreated : firstCreation effects k = none) :
    run effects ledger k = none := by
  induction effects generalizing ledger with
  | nil => exact absent
  | cons e effects ih =>
    have hall := firstCreation_eq_none.mp uncreated
    have hcreate : k ∉ e.created := hall e List.mem_cons_self
    have hstep : e.apply ledger k = none := by
      rw [Effect.apply, lookup_creates_eq_none.mpr hcreate, absent]
      simp
    exact ih hstep (firstCreation_eq_none.mpr fun e' h => hall e' (List.mem_cons_of_mem _ h))

/-! ## Undoing -/

/-- A key is spent by one of the effects. -/
def SpentIn (effects : List (Effect κ υ)) (k : κ) : Prop := ∃ e ∈ effects, k ∈ e.spends

/-- Undo effects, the last one first. -/
def undoAll (restored : κ → υ) (effects : List (Effect κ υ)) (ledger : κ → Option υ) :
    κ → Option υ :=
  effects.foldr (fun e ledger => e.undo restored ledger) ledger

@[simp] theorem undoAll_cons (restored : κ → υ) (e : Effect κ υ) (effects : List (Effect κ υ))
    (ledger : κ → Option υ) :
    undoAll restored (e :: effects) ledger = e.undo restored (undoAll restored effects ledger) :=
  rfl

/-- An entry that is never spent stays. -/
theorem run_of_not_spentIn
    (fits : FitsAll effects ledger) (present : ledger k ≠ none) (unspent : ¬ SpentIn effects k) :
    run effects ledger k = ledger k := by
  induction effects generalizing ledger with
  | nil => rfl
  | cons e effects ih =>
    obtain ⟨hfit, hfits⟩ := fits
    have hspend : k ∉ e.spends := fun h => unspent ⟨e, List.mem_cons_self, h⟩
    have hcreate : k ∉ e.created := fun h => present (hfit.createdNew k h)
    have hstep : e.apply ledger k = ledger k := apply_of_untouched hspend hcreate
    have hrest : ¬ SpentIn effects k := fun ⟨e', hmem, h⟩ =>
      unspent ⟨e', List.mem_cons_of_mem _ hmem, h⟩
    rw [run_cons, ih hfits (by rwa [hstep]) hrest, hstep]

/-- **What undoing leaves.** -/
theorem undoAll_eq (restored : κ → υ)
    (fits : FitsAll effects before) (same : SameDomain after (run effects before)) (k : κ) :
    (before k = none → undoAll restored effects after k = none) ∧
      (before k ≠ none → SpentIn effects k →
        undoAll restored effects after k = some (restored k)) ∧
      (before k ≠ none → ¬ SpentIn effects k →
        undoAll restored effects after k = after k) := by
  induction effects generalizing before with
  | nil =>
    refine ⟨fun h => (same k).mpr h, fun _ hspent => ?_, fun _ _ => rfl⟩
    obtain ⟨e, hmem, -⟩ := hspent
    cases hmem
  | cons e effects ih =>
    obtain ⟨hfit, hfits⟩ := fits
    obtain ⟨hnone, hspent, hkept⟩ := ih hfits same
    rw [undoAll_cons]
    unfold Effect.undo
    by_cases hspend : k ∈ e.spends
    · rw [if_pos hspend]
      exact ⟨fun h => absurd h (hfit.spendsPresent k hspend), fun _ _ => rfl,
        fun _ h => absurd ⟨e, List.mem_cons_self, hspend⟩ h⟩
    rw [if_neg hspend]
    have hspentIn : SpentIn (e :: effects) k ↔ SpentIn effects k := by
      simp [SpentIn, hspend]
    by_cases hcreate : k ∈ e.created
    · rw [if_pos hcreate]
      have habsent := hfit.createdNew k hcreate
      exact ⟨fun _ => rfl, fun h => absurd habsent h, fun h => absurd habsent h⟩
    have hstep : e.apply before k = before k := apply_of_untouched hspend hcreate
    rw [if_neg hcreate, hspentIn, ← hstep]
    exact ⟨hnone, hspent, hkept⟩

/-- Undoing leaves the keys there were before. -/
theorem sameDomain_undoAll (restored : κ → υ) (fits : FitsAll effects before)
    (same : SameDomain after (run effects before)) :
    SameDomain (undoAll restored effects after) before := by
  intro k
  obtain ⟨hnone, hspent, hkept⟩ := undoAll_eq restored fits same k
  by_cases hbefore : before k = none
  · simp [hbefore, hnone hbefore]
  · by_cases hin : SpentIn effects k
    · simp [hbefore, hspent hbefore hin]
    · rw [hkept hbefore hin, same k, run_of_not_spentIn fits hbefore hin]

/-- A ledger in which a key that is created again later holds its first later entry. -/
def rehome (later : List (Effect κ υ)) (ledger : κ → Option υ) : κ → Option υ := fun k =>
  (ledger k).map fun v => (firstCreation later k).getD v

theorem sameDomain_rehome (later : List (Effect κ υ)) (ledger : κ → Option υ) :
    SameDomain (rehome later ledger) ledger := fun k => by
  rw [rehome, Option.map_eq_none_iff]

/-- A key that is there and created again has been spent in between. -/
theorem spentIn_of_firstCreation (fits : FitsAll effects ledger) (present : ledger k ≠ none)
    (created : firstCreation effects k ≠ none) : SpentIn effects k := by
  by_contra hunspent
  refine created (firstCreation_eq_none.mpr fun e hmem hcreate => ?_)
  obtain ⟨front, back, rfl⟩ := List.append_of_mem hmem
  obtain ⟨hfront, hfit, -⟩ := fitsAll_append.mp fits
  have hrest : ¬ SpentIn front k := fun ⟨e', hmem', h⟩ =>
    hunspent ⟨e', List.mem_append_left _ hmem', h⟩
  exact present ((run_of_not_spentIn hfront present hrest) ▸ hfit.createdNew k hcreate)

/-- What a run spends after a point has been created after it, or last before it. -/
theorem exists_creation_of_spentIn (fits : FitsAll (front ++ back) empty) (spent : SpentIn back k) :
    (firstCreation back k).or (lastCreation front k) ≠ none := by
  intro hnone
  obtain ⟨hfirst, hlast⟩ := Option.or_eq_none_iff.mp hnone
  obtain ⟨e, hmem, hspend⟩ := spent
  obtain ⟨before, after, rfl⟩ := List.append_of_mem hmem
  obtain ⟨-, hback⟩ := fitsAll_append.mp fits
  obtain ⟨-, hfit, -⟩ := fitsAll_append.mp hback
  have hfront : run front empty k = none := by
    by_contra hsome
    obtain ⟨v, hv⟩ := Option.ne_none_iff_exists'.mp hsome
    rw [lastCreation_of_run hv] at hlast
    cases hlast
  have hbefore : firstCreation before k = none := firstCreation_eq_none.mpr fun e' h =>
    firstCreation_eq_none.mp hfirst e' (List.mem_append_left _ h)
  exact hfit.spendsPresent k hspend (run_eq_none hfront hbefore)

/-- **Undoing the end of a run with the entries the run itself provides.** -/
theorem undoAll_run_eq_rehome (restored : κ → υ) (fits : FitsAll (front ++ back) empty)
    (found : ∀ k, SpentIn back k →
      (firstCreation back k).or (lastCreation front k) = some (restored k)) :
    undoAll restored back (run (front ++ back) empty) = rehome back (run front empty) := by
  obtain ⟨-, hback⟩ := fitsAll_append.mp fits
  funext k
  rw [run_append]
  obtain ⟨hnone, hspent, hkept⟩ := undoAll_eq restored hback (SameDomain.refl _) k
  cases hentry : run front empty k with
  | none => rw [hnone hentry, rehome, hentry, Option.map_none]
  | some v =>
    have hpresent : run front empty k ≠ none := by simp [hentry]
    rw [rehome, hentry, Option.map_some]
    by_cases hin : SpentIn back k
    · rw [hspent hpresent hin]
      have hfound := found k hin
      rw [lastCreation_of_run hentry] at hfound
      cases hfirst : firstCreation back k with
      | none =>
        rw [hfirst, Option.none_or] at hfound
        rw [Option.getD_none, hfound]
      | some w =>
        rw [hfirst, Option.some_or] at hfound
        rw [Option.getD_some, hfound]
    · have hfirst : firstCreation back k = none := by
        by_contra h
        exact hin (spentIn_of_firstCreation hback hpresent h)
      rw [hkept hpresent hin, run_of_not_spentIn hback hpresent hin, hentry, hfirst,
        Option.getD_none]

/-! ## Effects on top of a rehomed ledger -/

/-- What effects leave under a key depends on that key only. -/
theorem run_congr (same : ledger k = other k) : run effects ledger k = run effects other k := by
  induction effects generalizing ledger other with
  | nil => exact same
  | cons e effects ih => exact ih (by simp only [Effect.apply, same])

/-- What effects leave under a key they spend does not depend on the ledger. -/
theorem run_congr_of_spentIn (spent : SpentIn effects k)
    (ledger other : κ → Option υ) : run effects ledger k = run effects other k := by
  induction effects generalizing ledger other with
  | nil => exact absurd spent.choose_spec.1 List.not_mem_nil
  | cons e effects ih =>
    rw [run_cons, run_cons]
    obtain ⟨e', hmem, hspent⟩ := spent
    rcases List.mem_cons.mp hmem with rfl | hmem
    · exact run_congr (by rw [apply_of_spent hspent, apply_of_spent hspent])
    · exact ih ⟨e', hmem, hspent⟩ _ _

/-- **When rehoming does not show**: exactly if everything rehomed is spent. -/
theorem run_rehome_iff {later : List (Effect κ υ)} (fits : FitsAll effects ledger)
    (differs : ∀ k v w, ledger k = some v → firstCreation later k = some w → v ≠ w) :
    run effects (rehome later ledger) = run effects ledger ↔
      ∀ k, ledger k ≠ none → firstCreation later k ≠ none → SpentIn effects k := by
  constructor
  · intro heq k hpresent hcreated
    by_contra hunspent
    obtain ⟨v, hv⟩ := Option.ne_none_iff_exists'.mp hpresent
    obtain ⟨w, hw⟩ := Option.ne_none_iff_exists'.mp hcreated
    have hsame := sameDomain_rehome later ledger
    have hkept := run_of_not_spentIn (hsame.symm.fitsAll fits)
      (fun h => hpresent ((hsame k).mp h)) hunspent
    rw [heq, run_of_not_spentIn fits hpresent hunspent, rehome, hv, hw] at hkept
    exact differs k v w hv hw (Option.some.inj hkept)
  · intro hspent
    funext k
    by_cases hin : SpentIn effects k
    · exact run_congr_of_spentIn hin _ _
    refine run_congr ?_
    cases hledger : ledger k with
    | none => rw [rehome, hledger, Option.map_none]
    | some v =>
      have hnone : firstCreation later k = none := by
        by_contra hcreated
        exact hin (hspent k (by rw [hledger]; exact Option.some_ne_none v) hcreated)
      rw [rehome, hledger, hnone]
      rfl

/-! ## Effects that spend nothing -/

section

variable (fits : FitsAll effects ledger) (keeps : ∀ e ∈ effects, e.spends = [])
include fits keeps

end

/-! ## Effects in parts -/

/-- The effects of the parts of a block as one effect. -/
def join (parts : List (Effect κ υ)) : Effect κ υ :=
  ⟨parts.flatMap Effect.spends, parts.flatMap Effect.creates⟩

section

omit [DecidableEq κ]

theorem spends_join_cons (part : Effect κ υ) (parts : List (Effect κ υ)) :
    (join (part :: parts)).spends = part.spends ++ (join parts).spends := List.flatMap_cons

theorem creates_join_cons (part : Effect κ υ) (parts : List (Effect κ υ)) :
    (join (part :: parts)).creates = part.creates ++ (join parts).creates := List.flatMap_cons

theorem created_join_cons (part : Effect κ υ) (parts : List (Effect κ υ)) :
    (join (part :: parts)).created = part.created ++ (join parts).created := by
  rw [Effect.created, creates_join_cons, List.map_append]
  rfl

/-- What is well formed as a whole is so in its first part and without it, and does not touch again
what the first part touches. -/
theorem wellFormed_of_join_cons {part : Effect κ υ} (wf : (join (part :: parts)).WellFormed) :
    part.WellFormed ∧ (join parts).WellFormed ∧ (∀ k ∈ part.spends, k ∉ (join parts).spends) ∧
      (∀ k ∈ part.spends, k ∉ (join parts).created) ∧
      ∀ k ∈ part.created, k ∉ (join parts).created := by
  obtain ⟨hspends, hcreated, hdisjoint⟩ := wf
  rw [spends_join_cons, List.nodup_append'] at hspends
  rw [created_join_cons, List.nodup_append'] at hcreated
  rw [spends_join_cons, created_join_cons] at hdisjoint
  refine ⟨⟨hspends.1, hcreated.1, fun k hk hk' => ?_⟩,
    ⟨hspends.2.1, hcreated.2.1, fun k hk hk' => ?_⟩, fun k hk hk' => hspends.2.2 hk hk',
    fun k hk hk' => ?_, fun k hk hk' => hcreated.2.2 hk hk'⟩
  · exact hdisjoint k (List.mem_append_left _ hk) (List.mem_append_left _ hk')
  · exact hdisjoint k (List.mem_append_right _ hk) (List.mem_append_right _ hk')
  · exact hdisjoint k (List.mem_append_left _ hk) (List.mem_append_right _ hk')

/-- The parts of a well-formed effect are well formed. -/
theorem wellFormed_of_mem (wf : (join parts).WellFormed) : ∀ part ∈ parts, part.WellFormed := by
  induction parts with
  | nil => simp
  | cons part parts ih =>
    obtain ⟨hpart, hrest, -⟩ := wellFormed_of_join_cons wf
    exact List.forall_mem_cons.mpr ⟨hpart, ih hrest⟩

end

/-- **The parts of a well-formed effect do together what it does.** -/
theorem run_parts (wf : (join parts).WellFormed)
    (ledger : κ → Option υ) : run parts ledger = (join parts).apply ledger := by
  induction parts generalizing ledger with
  | nil =>
    funext k
    simp [join, Effect.apply]
  | cons part parts ih =>
    obtain ⟨-, hrest, -, hspent, hcreated⟩ := wellFormed_of_join_cons wf
    funext k
    rw [run_cons, ih hrest]
    by_cases hlater : k ∈ (join parts).spends
    · rw [apply_of_spent hlater,
        apply_of_spent (by rw [spends_join_cons]; exact List.mem_append_right _ hlater)]
    rw [apply_of_not_spent hlater]
    by_cases hfirst : k ∈ part.spends
    · rw [apply_of_spent hfirst, lookup_creates_eq_none.mpr (hspent k hfirst),
        apply_of_spent (by rw [spends_join_cons]; exact List.mem_append_left _ hfirst)]
      rfl
    have hneither : k ∉ (join (part :: parts)).spends := by
      rw [spends_join_cons]
      exact fun h => (List.mem_append.mp h).elim hfirst hlater
    rw [apply_of_not_spent hfirst, apply_of_not_spent hneither]
    rw [creates_join_cons, List.lookup_append, Option.or_assoc, ← Option.or_assoc]
    by_cases hk : k ∈ part.created
    · rw [lookup_creates_eq_none.mpr (hcreated k hk), Option.none_or, Option.none_or]
    · rw [lookup_creates_eq_none.mpr hk, Option.or_none, Option.none_or]

/-- The parts fit where the whole does. -/
theorem fitsAll_parts (wf : (join parts).WellFormed) (fits : (join parts).Fits ledger) :
    FitsAll parts ledger := by
  induction parts generalizing ledger with
  | nil => trivial
  | cons part parts ih =>
    obtain ⟨-, hrest, hspends, -, hcreated⟩ := wellFormed_of_join_cons wf
    have hpresent : ∀ k, k ∈ part.spends ∨ k ∈ (join parts).spends → ledger k ≠ none := by
      intro k hk
      refine fits.spendsPresent k ?_
      rw [spends_join_cons]
      exact List.mem_append.mpr hk
    have hnew : ∀ k, k ∈ part.created ∨ k ∈ (join parts).created → ledger k = none := by
      intro k hk
      refine fits.createdNew k ?_
      rw [created_join_cons]
      exact List.mem_append.mpr hk
    refine ⟨⟨fun k hk => hpresent k (.inl hk), fun k hk => hnew k (.inl hk)⟩, ih hrest ⟨?_, ?_⟩⟩
    · intro k hk
      have hunspent : k ∉ part.spends := fun h => hspends k h hk
      rw [apply_of_not_spent hunspent, Ne, Option.or_eq_none_iff, not_and]
      exact fun _ => hpresent k (.inr hk)
    · intro k hk
      have huncreated : k ∉ part.created := fun h => hcreated k h hk
      have hunspent : k ∉ part.spends := fun h => hpresent k (.inl h) (hnew k (.inr hk))
      rw [apply_of_untouched hunspent huncreated]
      exact hnew k (.inr hk)

end Ledger

end DomProtocol
