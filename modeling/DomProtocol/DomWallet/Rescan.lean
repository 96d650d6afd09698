import DomProtocol.DomWallet.Agreement

/-! # Repair by rescan

A rescan in repair mode throws the outputs of a wallet away and rebuilds them from the blocks of a
chain. It finds an output again if it is the coinbase of its block, a receive request or the output
of a pending answered slate (**`Wallet.Recovers`**). A wallet **`Holds`** more than that: the
blinding factors of change and of settled slates are in the output index only. **`keepsMoney_iff`**
says when nothing is lost. -/

namespace DomProtocol.DomWallet

open Ledger

/-! ## The chain a source shows -/

/-- What a scanned block does to the unspent outputs. -/
def ScanBlock.effect (block : ScanBlock) : Effect (Octets 33) Nat :=
  ⟨block.inputCommitments, block.outputCommitments.map (·, block.height)⟩

namespace ChainScanSource

/-- The blocks of a source, by height. -/
def blocks (scan : ChainScanSource) : List ScanBlock :=
  (List.range (scan.tipHeight + 1)).filterMap fun height =>
    match scan.blockAt height with
    | .ok block => block
    | .error _ => none

/-- The unspent outputs after the blocks of a source. -/
def unspent (scan : ChainScanSource) : Octets 33 → Option Nat :=
  run (scan.blocks.map ScanBlock.effect) empty

/-- A block of the source consumed the output. -/
def Consumes (scan : ChainScanSource) (c : Octets 33) : Prop :=
  ∃ block ∈ scan.blocks, c ∈ block.inputCommitments

theorem mem_blocks {scan : ChainScanSource} {block : ScanBlock} :
    block ∈ scan.blocks ↔ ∃ height ∈ List.range (scan.tipHeight + 1),
      scan.blockAt height = .ok (some block) := by
  simp only [blocks, List.mem_filterMap]
  refine exists_congr fun height => and_congr_right fun _ => ?_
  cases scan.blockAt height <;> simp

/-- An unspent output was created by a block of the source. -/
theorem exists_created_of_unspent {scan : ChainScanSource} {c : Octets 33}
    (unspent : scan.unspent c ≠ none) : ∃ block ∈ scan.blocks, c ∈ block.outputCommitments := by
  by_contra uncreated
  refine unspent (run_eq_none rfl (firstCreation_eq_none.mpr fun effect mem created => ?_))
  obtain ⟨block, hblock, rfl⟩ := List.mem_map.mp mem
  refine uncreated ⟨block, hblock, ?_⟩
  simpa [Effect.created, ScanBlock.effect] using created

end ChainScanSource

/-! ## Indexes that are rebuilt -/

/-- The index holds exactly the outputs with a property, all of them unspent. -/
structure OutputIndex.Exactly (outputs : OutputIndex) (P : Octets 33 → Prop) : Prop where
  recorded : ∀ c : Octets 33, outputs[c]? ≠ none ↔ P c
  unspent : ∀ (c : Octets 33) output, outputs[c]? = some output →
    output.spent = false

namespace OutputIndex.Exactly

theorem congr (outputs : OutputIndex) (P Q : Octets 33 → Prop) (same : ∀ c, P c ↔ Q c)
    (exactly : outputs.Exactly P) : outputs.Exactly Q :=
  ⟨fun c => (exactly.recorded c).trans (same c), exactly.unspent⟩

theorem nothing : Exactly ∅ fun _ => False :=
  ⟨fun c => by simp, fun c output h => by simp at h⟩

/-- One more unspent output. -/
theorem insert {outputs : OutputIndex} {P : Octets 33 → Prop} (exactly : outputs.Exactly P)
    (commitment : Octets 33) {output : OwnedOutput} (unspent : output.spent = false) :
    Exactly (Std.ExtTreeMap.insert outputs commitment output) fun c => P c ∨ c = commitment := by
  constructor
  · intro c
    rw [Table.getElem?_insert]
    by_cases same : commitment = c
    · simp [same]
    · have other : ¬ c = commitment := fun h => same h.symm
      simp only [same, other, if_false, or_false]
      exact exactly.recorded c
  · intro c found h
    rw [Table.getElem?_insert] at h
    split at h
    · cases h
      exact unspent
    · exact exactly.unspent c found h

end OutputIndex.Exactly

namespace Wallet

section Repair

variable [Primitives] [WalletBackend]

variable {outputs : OutputIndex} {rebuilt rebuilt' : Rebuilt} {P : Octets 33 ⊕ Octets 33 → Prop}
  {commitment : Octets 33} {w : Wallet} {block : ScanBlock} {password : String}
  {receives : List PendingReceiveCandidate} {scan : ChainScanSource} {w' : Wallet} {d d' : Drive}
  {order : IterOrder (Hash256 × PendingTx)}

/-- The output is the wallet's coinbase of a block, worth the subsidy with or without the fees. -/
def IsCoinbaseOf (w : Wallet) (block : ScanBlock) (c : Octets 33) : Prop :=
  ∃ password blinding rewardWithFees, w.session = some password ∧
    w.coinbaseBlindingForHeight block.height password = .ok blinding ∧
    checkedAdd (rewardAt block.height) block.totalFeesNoms = some rewardWithFees ∧
    rescanValue blinding (rewardAt block.height) rewardWithFees c ≠ none

/-- **What a rescan finds again** in a block. -/
def Recovers (w : Wallet) (block : ScanBlock) (c : Octets 33) : Prop :=
  c ∈ block.outputCommitments ∧ (w.IsCoinbaseOf block c ∨
    (∃ request ∈ w.receiveRequests, request.commitment = c) ∨
    ∃ candidate, w.Answers candidate ∧ candidate.commitment = c)

/-- **What the wallet holds**: outputs whose blinding factor is in the output index, in the change or
the receive secrets of a pending entry, or derived for a coinbase or a receive request. -/
def Holds (w : Wallet) (c : Octets 33) : Prop :=
  w.outputs[c]? ≠ none ∨
    (∃ (x : Hash256) (pending : PendingTx) (change : PendingChange),
      w.pendingTxs[x]? = some pending ∧ pending.change = some change ∧ change.commitment = c) ∨
    (∃ candidate, w.Answers candidate ∧ candidate.commitment = c) ∨
    (∃ password height blinding value, w.session = some password ∧
      w.coinbaseBlindingForHeight height password = .ok blinding ∧
      commitBytes value blinding = c) ∨
    ∃ request ∈ w.receiveRequests, request.commitment = c

/-! ## What a rescan rebuilds -/

omit [WalletBackend] in
/-- The coinbase outputs of a block. -/
theorem exactly_rescanCoinbase {P : Octets 33 → Prop}
    (exactly : outputs.Exactly P) (blinding : Octets 32) (rewardWithFees : UInt64)
    (block : ScanBlock) :
    (rescanCoinbase blinding rewardWithFees block outputs).Exactly fun c => P c ∨
      (c ∈ block.outputCommitments ∧
        rescanValue blinding (rewardAt block.height) rewardWithFees c ≠ none) := by
  unfold rescanCoinbase
  refine .congr _ _ _ (fun c => ?_) (foldl_collects OutputIndex.Exactly (fun commitment c =>
    c = commitment ∧ rescanValue blinding (rewardAt block.height) rewardWithFees c ≠ none)
    OutputIndex.Exactly.congr ?_ exactly)
  · simp
  · intro outputs commitment P exactly
    cases matched : rescanValue blinding (rewardAt block.height) rewardWithFees commitment with
    | none =>
      refine .congr _ _ _ (fun c => ⟨.inl, ?_⟩) exactly
      rintro (h | ⟨rfl, found⟩)
      · exact h
      · exact absurd matched found
    | some value =>
      have added : OutputIndex.Exactly (Std.ExtTreeMap.insert outputs commitment
          (.new commitment value blinding block.height true block.blockHash)) _ :=
        exactly.insert commitment rfl
      refine .congr _ _ _ (fun c => or_congr_right ⟨?_, And.left⟩) added
      rintro rfl
      exact ⟨rfl, by simp [matched]⟩

/-- What has been found: the recorded outputs on the left, the consumed ones on the right. -/
structure Finds (rebuilt : Rebuilt) (P : Octets 33 ⊕ Octets 33 → Prop) : Prop where
  exactly : rebuilt.outputs.Exactly fun c => P (.inl c)
  consumed : ∀ c, c ∈ rebuilt.canonicalInputs ↔ P (.inr c)

omit [Primitives] [WalletBackend] in
theorem Finds.congr (rebuilt : Rebuilt) (P Q : Octets 33 ⊕ Octets 33 → Prop)
    (same : ∀ c, P c ↔ Q c) (finds : Finds rebuilt P) : Finds rebuilt Q :=
  ⟨.congr _ _ _ (fun c => same (.inl c)) finds.exactly,
    fun c => (finds.consumed c).trans (same (.inr c))⟩

omit [Primitives] [WalletBackend] in
/-- One more recorded output. -/
theorem Finds.insert (finds : Finds rebuilt P) {output : OwnedOutput}
    (unspent : output.spent = false)
    (outputs : rebuilt'.outputs = Std.ExtTreeMap.insert rebuilt.outputs commitment output)
    (inputs : rebuilt'.canonicalInputs = rebuilt.canonicalInputs) :
    Finds rebuilt' fun k => P k ∨ k = .inl commitment := by
  constructor
  · rw [outputs]
    exact .congr _ _ _ (fun c => by simp) (finds.exactly.insert commitment unspent)
  · intro c
    rw [inputs, finds.consumed]
    simp

/-- The receive requests of a block. -/
theorem finds_rescanRequests (finds : Finds rebuilt P)
    (run : w.receiveRequests.foldlM (w.rescanRequest block) rebuilt = .ok rebuilt') :
    Finds rebuilt' fun k => P k ∨ ∃ request ∈ w.receiveRequests,
      k = .inl request.commitment ∧ request.commitment ∈ block.outputCommitments := by
  refine foldlM_collects Finds (fun request k => k = .inl request.commitment ∧
    request.commitment ∈ block.outputCommitments) Finds.congr ?_ finds run
  intro rebuilt rebuilt' request P _ finds step
  unfold rescanRequest at step
  split at step
  · rename_i found
    have mem : request.commitment ∈ block.outputCommitments := by simpa using found
    simp only [bind_eq_ok, pure_eq_ok] at step
    obtain ⟨blinding, -, rfl⟩ := step
    exact .congr _ _ _ (fun k => by simp [mem]) (finds.insert rfl rfl rfl)
  · rename_i missing
    have mem : request.commitment ∉ block.outputCommitments := by simpa using missing
    cases step
    exact .congr _ _ _ (fun k => by simp [mem]) finds

omit [Primitives] [WalletBackend] in
/-- The answered slates of a block. -/
theorem finds_rescanReceives (receives : List PendingReceiveCandidate) (block : ScanBlock)
    (finds : Finds rebuilt P) :
    Finds (receives.foldl (rescanReceive block) rebuilt) fun k => P k ∨ ∃ candidate ∈ receives,
      k = .inl candidate.commitment ∧ candidate.commitment ∈ block.outputCommitments := by
  refine foldl_collects Finds (fun (candidate : PendingReceiveCandidate) k =>
    k = .inl candidate.commitment ∧ candidate.commitment ∈ block.outputCommitments)
    Finds.congr ?_ finds
  intro rebuilt candidate P finds
  unfold rescanReceive
  split
  · rename_i found
    have mem : candidate.commitment ∈ block.outputCommitments := by simpa using found
    exact .congr _ _ _ (fun k => by simp [mem]) (finds.insert rfl rfl rfl)
  · rename_i missing
    have mem : candidate.commitment ∉ block.outputCommitments := by simpa using missing
    exact .congr _ _ _ (fun k => by simp [mem]) finds

/-- What one block adds to what a rescan finds. -/
def FoundIn (w : Wallet) (block : ScanBlock) : Octets 33 ⊕ Octets 33 → Prop :=
  Sum.elim (w.Recovers block) (· ∈ block.inputCommitments)

/-- **A block** adds what it recovers and what it consumes. -/
theorem finds_rescanBlock (unlocked : w.session = some password)
    (decoded : w.pendingReceiveCandidates = .ok receives)
    (finds : Finds rebuilt P) (run : w.rescanBlock password receives rebuilt block = .ok rebuilt') :
    Finds rebuilt' fun k => P k ∨ w.FoundIn block k := by
  simp only [rescanBlock, bind_eq_ok, okOr_eq_ok, pure_eq_ok] at run
  obtain ⟨blinding, derived, rewardWithFees, total, requested, hrequested, rfl⟩ := run
  have scanned : Finds { rebuilt with
      canonicalInputs := rebuilt.canonicalInputs ++ block.inputCommitments
      outputs := rescanCoinbase blinding rewardWithFees block rebuilt.outputs } fun k => P k ∨
        Sum.elim (fun c => c ∈ block.outputCommitments ∧
          rescanValue blinding (rewardAt block.height) rewardWithFees c ≠ none)
          (· ∈ block.inputCommitments) k := by
    refine ⟨exactly_rescanCoinbase finds.exactly blinding rewardWithFees block, fun c => ?_⟩
    simp [finds.consumed]
  have coinbase : ∀ c, w.IsCoinbaseOf block c ↔
      rescanValue blinding (rewardAt block.height) rewardWithFees c ≠ none := by
    intro c
    constructor
    · rintro ⟨password', blinding', rewardWithFees', hpassword, hblinding, htotal, found⟩
      rw [unlocked] at hpassword
      cases hpassword
      rw [derived] at hblinding
      cases hblinding
      rw [total] at htotal
      cases htotal
      exact found
    · exact fun found => ⟨password, blinding, rewardWithFees, unlocked, derived, total, found⟩
  refine .congr _ _ _ (fun k => ?_)
    (finds_rescanReceives receives block (finds_rescanRequests scanned hrequested))
  cases k with
  | inr c => simp [FoundIn]
  | inl c =>
    simp only [FoundIn, Sum.elim_inl, Recovers, coinbase, Sum.inl.injEq, or_assoc,
      mem_pendingReceiveCandidates decoded]
    refine or_congr_right ?_
    constructor
    · rintro (⟨mem, found⟩ | ⟨request, hrequest, rfl, mem⟩ | ⟨candidate, hcandidate, rfl, mem⟩)
      · exact ⟨mem, .inl found⟩
      · exact ⟨mem, .inr (.inl ⟨request, hrequest, rfl⟩)⟩
      · exact ⟨mem, .inr (.inr ⟨candidate, hcandidate, rfl⟩)⟩
    · rintro ⟨mem, found | ⟨request, hrequest, rfl⟩ | ⟨candidate, hcandidate, rfl⟩⟩
      · exact .inl ⟨mem, found⟩
      · exact .inr (.inl ⟨request, hrequest, rfl, mem⟩)
      · exact .inr (.inr ⟨candidate, hcandidate, rfl, mem⟩)

/-- **The scan of a chain** finds what its blocks recover and consume. -/
theorem finds_rescan (unlocked : w.session = some password)
    (decoded : w.pendingReceiveCandidates = .ok receives)
    (run : (List.range (scan.tipHeight + 1)).foldlM (w.rescanHeight password receives scan)
      ⟨∅, [], ∅, ∅⟩ = .ok rebuilt) :
    Finds rebuilt fun k => ∃ block ∈ scan.blocks, w.FoundIn block k := by
  have start : Finds ⟨∅, [], ∅, ∅⟩ fun _ => False := ⟨.nothing, by simp⟩
  have loop := foldlM_collects Finds (fun height k => ∃ block,
    scan.blockAt height = .ok (some block) ∧ w.FoundIn block k) Finds.congr ?_ start run
  · refine .congr _ _ _ (fun k => ?_) loop
    simp only [false_or, ChainScanSource.mem_blocks]
    constructor
    · rintro ⟨height, mem, block, shown, found⟩
      exact ⟨block, ⟨height, mem, shown⟩, found⟩
    · rintro ⟨block, ⟨height, mem, shown⟩, found⟩
      exact ⟨height, mem, block, shown, found⟩
  · intro rebuilt rebuilt' height P _ finds step
    simp only [rescanHeight, fetchBlock, bind_eq_ok, mapError_eq_ok] at step
    obtain ⟨fetched, ⟨shown, hshown, hfetched⟩, step⟩ := step
    cases shown with
    | none =>
      cases hfetched
      cases step
      exact .congr _ _ _ (fun k => by simp [hshown]) finds
    | some block =>
      simp only [bind_eq_ok, rejectIf_eq_ok, pure_eq_ok] at hfetched
      obtain ⟨-, -, rfl⟩ := hfetched
      exact .congr _ _ _ (fun k => by simp [hshown])
        (finds_rescanBlock unlocked decoded finds step)

/-! ## The repaired wallet -/

section

omit [Primitives] [WalletBackend]

/-- Reserving an output keeps the outputs alike. -/
theorem alike_of_reserve {x : Hash256} {outputs' : OutputIndex}
    (reserved : OutputIndex.reserve commitment x outputs = .ok outputs') :
    Alike outputs outputs' := by
  by_cases recorded : outputs[commitment]? = none
  · simp [OutputIndex.reserve, OutputIndex.change, recorded] at reserved
  · have changed := OutputIndex.change_of_mem (f := OwnedOutput.reservedFor x) recorded
    have same := reserved.symm.trans changed
    cases same
    exact alike_updateAll (f := fun _ => OwnedOutput.reservedFor x) (fun _ _ => rfl)
      (fun _ _ => rfl) [commitment] outputs

/-- Keeping pending transactions only reserves outputs. -/
theorem alike_of_keepPending {confirmed : Table Hash256 (PendingReceiveCandidate × Nat × Option Hash256)}
    {entries : List (Hash256 × PendingTx)} {start final : OutputIndex × Table Hash256 PendingTx}
    (run : entries.foldlM (keepPending confirmed) start = .ok final) : Alike start.1 final.1 := by
  refine foldlM_invariant (fun acc => Alike start.1 acc.1) ?_ (.refl _) run
  intro acc acc' entry _ alike step
  unfold keepPending at step
  split at step
  · simp only [bind_eq_ok, pure_eq_ok] at step
    obtain ⟨outputs, hreserved, rfl⟩ := step
    refine alike.trans (foldlM_invariant (fun outputs => Alike acc.1 outputs) ?_ (.refl _) hreserved)
    exact fun outputs outputs' c _ alike reserved => alike.trans (alike_of_reserve reserved)
  · cases step
    exact alike

/-- Recording found slates leaves the wallet alone. -/
theorem exists_runs_recordReceives
    (entries : List (PendingReceiveCandidate × Nat × Option Hash256)) (w : Wallet) (d : Drive) :
    Runs (Act.forEach (fun entry => recordReceiveConfirmedIfNeeded entry.1 entry.2.1 entry.2.2)
      entries) w d (.ok ()) w (entries.foldl (fun d entry => noteReceive entry.2.1 entry.2.2 d
        entry.1) d) := by
  induction entries generalizing d with
  | nil => exact Act.runs_pure () w d
  | cons entry entries ih => exact (runs_recordReceive entry.1 w d).bind (ih _)

end

/-- **What a repair does**: it scans the chain, keeps what survives of the pending transactions,
records the answered slates it has found and saves. -/
theorem of_rescanRepair (run : Runs (rescanCanonicalChain order scan .repair) w d (.ok ()) w' d') :
    ∃ password receives rebuilt outputs pendingTxs, w.session = some password ∧
      w.pendingReceiveCandidates = .ok receives ∧
      (List.range (scan.tipHeight + 1)).foldlM (w.rescanHeight password receives scan)
        ⟨∅, [], ∅, ∅⟩ = .ok rebuilt ∧
      (order.arrange w.pendingTxs.toList).foldlM (keepPending rebuilt.confirmedReceives)
        (spendCanonical rebuilt, ∅) = .ok (outputs, pendingTxs) ∧
      w' = { w with
        outputs := outputs
        pendingTxs := pendingTxs
        receiveRequests := w.receiveRequests.map
          (rescannedStatus w.network.coinbaseMaturity scan.tipHeight rebuilt) } ∧
      d' = ((rebuilt.confirmedReceives.toList.map Prod.snd).foldl
        (fun d entry => noteReceive entry.2.1 entry.2.2 d entry.1) d).save w'.toWalletState := by
  obtain ⟨password, unlocked, run⟩ := of_requireSession_bind run
  obtain ⟨receives, decoded, run⟩ := (run.rest (Act.runs_get w d)).ok_of_lift_bind
  obtain ⟨rebuilt, scanned, run⟩ := run.ok_of_lift_bind
  obtain ⟨⟨outputs, pendingTxs⟩, kept, run⟩ := run.ok_of_lift_bind
  refine ⟨password, receives, rebuilt, outputs, pendingTxs, unlocked, decoded, scanned, kept, ?_⟩
  have run := (run.rest (exists_runs_recordReceives _ w d)).rest (Act.runs_modify _ w _)
  obtain ⟨-, rfl, rfl⟩ := run.unique (runs_save (by simp [Unlocked, unlocked]) _)
  exact ⟨rfl, rfl⟩

omit [Primitives] [WalletBackend] in
theorem getElem?_spendCanonical (rebuilt : Rebuilt) (c : Octets 33) :
    (spendCanonical rebuilt)[c]? = if c ∈ rebuilt.canonicalInputs then
      (rebuilt.outputs[c]?).map fun output => { output with spent := true, reservedForTx := none }
      else rebuilt.outputs[c]? := by
  rw [spendCanonical, Table.getElem?_updateAll]
  exact fun _ _ => rfl

/-- **The outputs after a repair**: what the chain recovers, spent if the chain consumed it. -/
theorem outputs_of_rescanRepair
    (run : Runs (rescanCanonicalChain order scan .repair) w d (.ok ()) w' d') (c : Octets 33) :
    (w'.outputs[c]? ≠ none ↔ ∃ block ∈ scan.blocks, w.Recovers block c) ∧
      ∀ output, w'.outputs[c]? = some output → (output.spent = true ↔ scan.Consumes c) := by
  obtain ⟨password, receives, rebuilt, outputs, pendingTxs, unlocked, decoded, scanned, kept, rfl,
    -⟩ := of_rescanRepair run
  have finds := finds_rescan unlocked decoded scanned
  have alike : Alike (spendCanonical rebuilt) outputs := alike_of_keepPending kept
  have missing : outputs[c]? = none ↔ rebuilt.outputs[c]? = none := by
    have same := alike c
    constructor
    · intro h
      rw [h, Option.map_none, Option.map_eq_none_iff, getElem?_spendCanonical] at same
      split at same
      · exact Option.map_eq_none_iff.mp same
      · exact same
    · intro h
      rw [getElem?_spendCanonical, h] at same
      simpa using same.symm
  refine ⟨(not_congr missing).trans (finds.exactly.recorded c), fun output recorded => ?_⟩
  obtain ⟨before, hbefore, same⟩ := alike.exists recorded
  rw [← (OwnedOutput.of_unreserved same).2.1, ChainScanSource.Consumes]
  have consumed : c ∈ rebuilt.canonicalInputs ↔ ∃ block ∈ scan.blocks, c ∈ block.inputCommitments :=
    finds.consumed c
  rw [getElem?_spendCanonical] at hbefore
  split at hbefore
  · rename_i mem
    obtain ⟨found, -, rfl⟩ := Option.map_eq_some_iff.mp hbefore
    exact ⟨fun _ => consumed.mp mem, fun _ => rfl⟩
  · rename_i mem
    rw [finds.exactly.unspent c before hbefore]
    exact ⟨nofun, fun h => absurd (consumed.mpr h) mem⟩

/-- **A repair keeps the wallet's money**: what it holds of the unspent set is recorded as unspent, and
nothing the chain consumed is. -/
structure KeepsMoney (w : Wallet) (scan : ChainScanSource) (w' : Wallet) : Prop where
  kept : ∀ c : Octets 33, w.Holds c → scan.unspent c ≠ none →
    ∃ output, w'.outputs[c]? = some output ∧ output.spent = false
  consumed : ∀ (c : Octets 33) (output : OwnedOutput), w'.outputs[c]? = some output →
    scan.Consumes c → output.spent = true

/-- **When a repair keeps the wallet's money**: exactly if every unspent output it holds is the
coinbase of its block, a receive request or an answered slate, and was never consumed. -/
theorem keepsMoney_iff {w w' : Wallet} {d d' : Drive} {order : IterOrder (Hash256 × PendingTx)}
    {scan : ChainScanSource}
    (run : Runs (rescanCanonicalChain order scan .repair) w d (.ok ()) w' d') :
    w.KeepsMoney scan w' ↔ ∀ c : Octets 33, w.Holds c → scan.unspent c ≠ none →
      (∃ block ∈ scan.blocks, w.Recovers block c) ∧ ¬ scan.Consumes c := by
  constructor
  · intro keeps c holds unspent
    obtain ⟨output, recorded, hspent⟩ := keeps.kept c holds unspent
    obtain ⟨found, marks⟩ := outputs_of_rescanRepair run c
    refine ⟨found.mp (by simp [recorded]), fun consumes => ?_⟩
    rw [(marks output recorded).mpr consumes] at hspent
    cases hspent
  · intro condition
    constructor
    · intro c holds unspent
      obtain ⟨recovered, fresh⟩ := condition c holds unspent
      obtain ⟨found, marks⟩ := outputs_of_rescanRepair run c
      obtain ⟨output, recorded⟩ := Option.ne_none_iff_exists'.mp (found.mpr recovered)
      exact ⟨output, recorded, by simpa using fun h => fresh ((marks output recorded).mp h)⟩
    · intro c output recorded consumes
      exact ((outputs_of_rescanRepair run c).2 output recorded).mpr consumes

end Repair

end Wallet

/-! ## A repair that loses the change of a spend -/

namespace Sample

open Transparent

attribute [local instance] primitives sampleBackend

/-- An empty deterministic wallet. -/
def emptyState : WalletState := { minerState with outputs := ∅, keychain := ⟨some 1, 0⟩ }

/-- The wallet, unlocked, before any block. -/
def emptyWorld : World := ⟨⟨emptyState, some "password"⟩, ⟨⟨[], emptyState⟩, []⟩, []⟩

/-- A block whose coinbase is the wallet's. -/
def blockAt (height : UInt64) (transactions : List Transaction) : Block :=
  regtestBlock height 5 5 transactions

/-- The wallet has mined block 1. -/
def minedWorld : World := (emptyWorld.after (.buildCoinbase 1 0)).extend (blockAt 1 [])

/-- The coinbase of block 1 as the wallet records it. -/
def firstCoinbase : OwnedOutput :=
  .new (pointBytes (2 ^ 64 + 6) reward) (UInt64.ofNat reward) (BitVec.ofNat _ (2 ^ 64 + 6)) 1 true none

/-- What the first spend pays. -/
def paid : Nat := reward / 2

/-- The transaction of the first spend: half of the coinbase is change. -/
def firstTx : Transaction :=
  transfer [(2 ^ 64 + 6, reward)] [(40, paid), (2 ^ 64, reward - paid)] 34

/-- The change of the first spend. -/
def firstChange : PendingChange where
  commitment := pointBytes (2 ^ 64) (reward - paid)
  value := UInt64.ofNat (reward - paid)
  blinding := BitVec.ofNat _ (2 ^ 64)

/-- The first spend as the wallet builds it. -/
def firstSpend : BuiltSpend where
  txHash := Primitives.blake2b256 (WireFormat.encode firstTx)
  txBytes := WireFormat.encode firstTx
  selectedCommitments := [firstCoinbase.commitment]
  pendingChange := some firstChange

/-- The call that builds the first spend. -/
def firstCall : Call :=
  .buildSpend .asListed ⟨BitVec.ofNat _ (2 ^ 64), 0⟩ (BitVec.ofNat _ 40) (UInt64.ofNat paid) 0 2

/-- The wallet has built the first spend. -/
def spendingWorld : World where
  wallet := Wallet.reserved firstSpend minedWorld.wallet
  drive := (minedWorld.drive.append ⟨firstSpend.txHash, firstSpend.event⟩).save
    (Wallet.reserved firstSpend minedWorld.wallet).toWalletState
  chain := minedWorld.chain

/-- The first spend is in block 2. -/
def changedWorld : World := spendingWorld.extend (blockAt 2 [firstTx])

/-- The wallet after block 1 and the first spend, computed. -/
theorem minedWorld_eq :
    ((minedWorld.after firstCall).wallet = spendingWorld.wallet ∧
      (minedWorld.after firstCall).drive = spendingWorld.drive) ∧
    fitsChain [] (blockAt 1 []) = true ∧
    (emptyWorld.after (.buildCoinbase 1 0)).accepts (blockAt 1 []) = true ∧
    fitsChain spendingWorld.chain (blockAt 2 [firstTx]) = true ∧
    spendingWorld.accepts (blockAt 2 [firstTx]) = true := by
  decide +kernel

theorem emptyWorld_steps :
    Relation.ReflTransGen (fun s s' => ∃ event, Step s event s') emptyWorld changedWorld := by
  obtain ⟨spent, fits, accepted, fits', accepted'⟩ := minedWorld_eq
  have mined : Step (emptyWorld.after (.buildCoinbase 1 0)) (.block .asListed (blockAt 1 []) none)
      minedWorld := World.step_extend fits accepted
  have changed : Step spendingWorld (.block .asListed (blockAt 2 [firstTx]) none) changedWorld :=
    World.step_extend fits' accepted'
  exact (((Relation.ReflTransGen.single ⟨_, emptyWorld.step_after _⟩).tail ⟨_, mined⟩).tail
    ⟨_, World.step_call spent⟩).tail ⟨_, changed⟩

/-- A block as a scan shows it. -/
def scanned (block : Block) : ScanBlock where
  height := block.header.height.toNat
  blockHash := none
  outputCommitments := block.outputKeys
  inputCommitments := block.inputKeys
  totalFeesNoms := 0

/-- The source that shows blocks 1, 2 and so on. -/
def scanOf (blocks : List Block) : ChainScanSource where
  tipHeight := blocks.length
  blockAt height := .ok ((blocks.find? (·.header.height.toNat = height)).map scanned)

/-- Blocks 1 and 2. -/
def spentBlocks : List Block := [blockAt 1 [], blockAt 2 [firstTx]]

/-- The wallet after the repair from blocks 1 and 2. -/
def repairedWallet : Wallet := ((Wallet.rescanCanonicalChain .asListed (scanOf spentBlocks) .repair
  changedWorld.wallet).run Drive.exec changedWorld.drive).1.2

/-- The repair from blocks 1 and 2, computed. -/
theorem changeRepair_eq :
    ((Wallet.rescanCanonicalChain .asListed (scanOf spentBlocks) .repair changedWorld.wallet).run
        Drive.exec changedWorld.drive).1.1.isOk = true ∧
      changedWorld.wallet.outputs[firstChange.commitment]? ≠ none ∧
      repairedWallet.outputs[firstChange.commitment]? = none ∧
      (scanOf spentBlocks).unspent firstChange.commitment ≠ none := by
  decide +kernel

/-- **The change is lost**: the wallet mines block 1, spends half of the coinbase in block 2 and holds
the rest as change; a repair from these two blocks drops it. -/
theorem repair_loses_change :
    ∃ (s : World) (w' : Wallet) (d' : Drive),
      Relation.ReflTransGen (fun s s' => ∃ event, Step s event s') emptyWorld s ∧
      s.chain = spentBlocks.map .block ∧
      Runs (Wallet.rescanCanonicalChain .asListed (scanOf spentBlocks) .repair) s.wallet s.drive
        (.ok ()) w' d' ∧
      ¬ s.wallet.KeepsMoney (scanOf spentBlocks) w' := by
  obtain ⟨repaired, recorded, lost, unspent⟩ := changeRepair_eq
  refine ⟨changedWorld, repairedWallet, _, emptyWorld_steps, rfl, Wallet.runs_of_isOk repaired,
    fun keeps => ?_⟩
  obtain ⟨output, recorded, -⟩ := keeps.kept firstChange.commitment (.inl recorded) unspent
  rw [lost] at recorded
  cases recorded

/-- The repair from block 1, computed. -/
theorem coinbaseRepair_eq :
    ((Wallet.rescanCanonicalChain .asListed (scanOf [blockAt 1 []]) .repair minedWorld.wallet).run
        Drive.exec minedWorld.drive).1.1.isOk = true ∧
      (minedWorld.wallet.coinbaseBlindingForHeight 1 "password").toOption = some (BitVec.ofNat _ (2 ^ 64 + 6)) ∧
      checkedAdd (Wallet.rewardAt 1) 0 = some (UInt64.ofNat reward) ∧
      Wallet.rescanValue (BitVec.ofNat _ (2 ^ 64 + 6)) (Wallet.rewardAt 1) (UInt64.ofNat reward)
        firstCoinbase.commitment ≠ none := by
  decide +kernel

/-- A repair of a wallet that has only mined. -/
theorem repair_keeps_coinbase :
    minedWorld.wallet.KeepsMoney (scanOf [blockAt 1 []])
      ((Wallet.rescanCanonicalChain .asListed (scanOf [blockAt 1 []]) .repair
        minedWorld.wallet).run Drive.exec minedWorld.drive).1.2 := by
  have blocks : (scanOf [blockAt 1 []]).blocks = [scanned (blockAt 1 [])] := rfl
  have outputs : (scanned (blockAt 1 [])).outputCommitments = [firstCoinbase.commitment] := rfl
  obtain ⟨repaired, derived, sum, value⟩ := coinbaseRepair_eq
  refine (Wallet.keepsMoney_iff (Wallet.runs_of_isOk repaired)).mpr fun c _ unspent => ?_
  obtain ⟨block, shown, created⟩ := ChainScanSource.exists_created_of_unspent unspent
  rw [blocks, List.mem_singleton] at shown
  subst shown
  have coinbase : c = firstCoinbase.commitment := List.mem_singleton.mp (outputs ▸ created)
  subst coinbase
  refine ⟨⟨_, blocks ▸ List.mem_singleton_self _, created, .inl ⟨"password", BitVec.ofNat _ (2 ^ 64 + 6),
    UInt64.ofNat reward, rfl, eq_ok_of_toOption derived, sum, value⟩⟩, ?_⟩
  rintro ⟨block, shown, consumed⟩
  rw [blocks, List.mem_singleton] at shown
  subst shown
  cases consumed

end Sample

end DomProtocol.DomWallet
