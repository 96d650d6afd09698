import DomProtocol.Settlement.History

/-! # Finality of terminal evidence

A chain is the list of its block hashes, and a reorganisation replaces blocks at its end. Evidence
stays on the chain through all reorganisations of at most `depth` blocks that do not shorten the
chain if and only if more than `depth` blocks confirm it: `deep_iff_stays`.

Valid terms never ask for more confirmations than the deepest reorganisation they tolerate, so the
block of a confirmed claim can still be removed: `confirmed_claim_removed`. It cannot if, at every
tick, what the engine knows and what has enough confirmations for it is deep (**`Buried`**):
`terminal_evidence_stays`. -/

namespace DomProtocol.Settlement

/-! ## Chains -/

/-- The hashes of the blocks of a chain, from height 0. -/
abbrev BlockChain := List Digest32

/-- The block an evidence is pinned to is on the chain. -/
def OnChain (chain : BlockChain) (evidence : EvidenceRef) : Prop :=
  chain[evidence.blockHeight.toNat]? = some evidence.blockAnchor

/-- More than `depth` blocks of the chain confirm the evidence, its own among them. -/
def Deep (depth : Nat) (c : BlockChain) (evidence : EvidenceRef) : Prop :=
  OnChain c evidence ∧ evidence.blockHeight.toNat + depth < c.length

/-- The chain grows, or at most `depth` blocks at its end are replaced. -/
def Reorganised (depth : Nat) (c c' : BlockChain) : Prop :=
  ∃ kept removed added, c = kept ++ removed ∧ c' = kept ++ added ∧ removed.length ≤ depth

/-- A reorganisation that does not shorten the chain. -/
def Steady (depth : Nat) (c c' : BlockChain) : Prop :=
  Reorganised depth c c' ∧ c.length ≤ c'.length

section Chain

variable {depth : Nat} {c c' : BlockChain} {evidence : EvidenceRef}

/-- **A deep block stays deep.** -/
theorem Deep.steady (deep : Deep depth c evidence) (h : Steady depth c c') :
    Deep depth c' evidence := by
  obtain ⟨⟨kept, removed, added, rfl, rfl, few⟩, longer⟩ := h
  obtain ⟨onChain, below⟩ := deep
  rw [List.length_append] at below
  have inside : evidence.blockHeight.toNat < kept.length := by omega
  refine ⟨?_, ?_⟩
  · unfold OnChain at onChain ⊢
    rwa [List.getElem?_append_left inside] at onChain ⊢
  · rw [List.length_append] at longer
    omega

/-- A block that is not deep can be replaced at once. -/
theorem exists_steady_removed (onChain : OnChain c evidence)
    (shallow : c.length ≤ evidence.blockHeight.toNat + depth) :
    ∃ c', Steady depth c c' ∧ ¬ OnChain c' evidence := by
  obtain ⟨below, -⟩ := List.getElem?_eq_some_iff.mp onChain
  let height := evidence.blockHeight.toNat
  let added := List.replicate (c.length - height) (evidence.blockAnchor + 1)
  refine ⟨c.take height ++ added, ⟨⟨c.take height, c.drop height, added, ?_, rfl, ?_⟩, ?_⟩, ?_⟩
  · rw [List.take_append_drop]
  · rw [List.length_drop]
    omega
  · rw [List.length_append, List.length_take, List.length_replicate]
    omega
  · unfold OnChain
    have start : (c.take height).length = height := by
      rw [List.length_take]
      omega
    rw [List.getElem?_append_right (by omega), start, Nat.sub_self, List.getElem?_replicate,
      if_pos (by omega), Option.some.injEq]
    bv_omega

/-- **Deep evidence is what stays on the chain forever.** -/
theorem deep_iff_stays : Deep depth c evidence ↔
    ∀ c', Relation.ReflTransGen (Steady depth) c c' → OnChain c' evidence := by
  constructor
  · intro deep c' run
    have still : Deep depth c' evidence := by
      induction run with
      | refl => exact deep
      | tail _ step ih => exact ih.steady step
    exact still.1
  · intro stays
    have onChain := stays c .refl
    refine ⟨onChain, ?_⟩
    by_contra shallow
    have low : c.length ≤ evidence.blockHeight.toNat + depth := by omega
    obtain ⟨c', step, removed⟩ := exists_steady_removed onChain low
    exact removed (stays c' (.single step))

end Chain

/-! ## What an engine may ingest -/

section Finality

variable [Digests]

/-- The evidence a terminal event confirms. -/
def SettlementEvent.confirms : SettlementEvent → Option EvidenceRef
  | claimConfirmed evidence => some evidence
  | refundConfirmed evidence => some evidence
  | _ => none

/-- Deepest reorganisation the terms tolerate. -/
def Binding.depth (b : Binding) : Nat := b.terms.domLeg.finality.maxReorgDepth.toNat

/-- The tip of a chain. -/
def IsTip (c : BlockChain) (tip : UInt64) : Prop := tip.toNat + 1 = c.length

/-- **Events that are supported by a chain**: what they confirm is deep, and a claim they report is
known to be in `K`. -/
structure Supported (b : Binding) (c : BlockChain) (K : EvidenceRef → Prop)
    (event : SettlementEvent) : Prop where
  deep : ∀ evidence, event.confirms = some evidence → Deep b.depth c evidence
  claim : ∀ evidence, event = .claimEvidenceVerified evidence → K evidence

/-- **Rows that are supported by a chain**: terminal events of the journal, and the events of evidence
that is not invalidated. -/
structure Rows.Supported (b : Binding) (c : BlockChain) (K : EvidenceRef → Prop) (rows : Rows) :
    Prop where
  terms : rows.terms = b.terms
  termsHash : rows.termsHash = b.termsHash
  journal : ∀ row ∈ rows.journal, ∀ evidence, row.envelope.event.confirms = some evidence →
    Deep b.depth c evidence
  evidence : ∀ row ∈ rows.evidence, row.status ≠ .invalidated → ∀ event,
    acceptedEvidence event = some row.reference →
      deriveEventId b.settlementId event = row.evidenceId → Settlement.Supported b c K event

/-- The rows of the settlement are supported. -/
def Store.Supported (b : Binding) (c : BlockChain) (K : EvidenceRef → Prop) (s : Store) : Prop :=
  ∃ rows, s.settlement b.settlementId = some rows ∧ rows.Supported b c K

section Supported

variable {b : Binding} {c : BlockChain} {K K' : EvidenceRef → Prop}

variable {event : SettlementEvent} {c' : BlockChain} {s : Store} {id : SettlementId}
  {evidence : List EvidenceRow} {rows : Rows} {req : Store.Commit} {s' : Store}
  {env : EventEnvelope} {cursorUpdate : Option CursorUpdate} {op : StoreOp} {value : op.Result}

omit [Digests] in
theorem Supported.mono (h : Supported b c K event)
    (weaker : ∀ evidence, K evidence → K' evidence) : Supported b c K' event :=
  ⟨h.deep, fun evidence same => weaker evidence (h.claim evidence same)⟩

omit [Digests] in
theorem Supported.steady (h : Supported b c K event)
    (step : Steady b.depth c c') : Supported b c' K event :=
  ⟨fun evidence same => (h.deep evidence same).steady step, h.claim⟩

theorem Store.Supported.mono (h : s.Supported b c K)
    (weaker : ∀ evidence, K evidence → K' evidence) : s.Supported b c K' := by
  obtain ⟨rows, found, supported⟩ := h
  exact ⟨rows, found, supported.terms, supported.termsHash, supported.journal,
    fun row mem live event same derived =>
      (supported.evidence row mem live event same derived).mono weaker⟩

theorem Store.Supported.steady (h : s.Supported b c K)
    (step : Steady b.depth c c') : s.Supported b c' K := by
  obtain ⟨rows, found, supported⟩ := h
  exact ⟨rows, found, supported.terms, supported.termsHash,
    fun row mem evidence same => (supported.journal row mem evidence same).steady step,
    fun row mem live event same derived =>
      (supported.evidence row mem live event same derived).steady step⟩

/-! ## Operations keep the rows supported -/

/-- Evidence that was written for an event: what is not invalidated was not before, or is the evidence
of the event. -/
def Revives (id : SettlementId) (event : SettlementEvent) (evidence evidence' : List EvidenceRow) :
    Prop :=
  ∀ row' ∈ evidence', row'.status ≠ .invalidated →
    row' ∈ evidence ∨ row'.evidenceId = deriveEventId id event

theorem revives_map
    {f : EvidenceRow → EvidenceRow} (h : ∀ row, f row = row ∨ (f row).status = .invalidated ∨
      (f row).evidenceId = deriveEventId id event) : Revives id event evidence (evidence.map f) := by
  intro row' mem live
  obtain ⟨row, hrow, rfl⟩ := List.mem_map.mp mem
  rcases h row with same | removed | own
  · rw [same]
    exact .inl hrow
  · exact (live removed).elim
  · exact .inr own

theorem revives_append {row : EvidenceRow} (own : row.evidenceId = deriveEventId id event) :
    Revives id event evidence (evidence ++ [row]) := by
  intro row' mem _
  rcases mem_snoc.mp mem with mem | rfl
  · exact .inl mem
  · exact .inr own

theorem revives_reaffirm (id : SettlementId) (event : SettlementEvent) (evidence : List EvidenceRow) :
    Revives id event evidence (Store.reaffirm evidence (deriveEventId id event)) :=
  revives_map fun row => by
    split
    · rename_i same
      exact .inr (.inr same.1)
    · exact .inl rfl

theorem revives_upsert (id : SettlementId) (event : SettlementEvent) (evidence : List EvidenceRow)
    (reference : EvidenceRef) :
    Revives id event evidence
      (Store.upsertEvidence evidence (deriveEventId id event) reference) := by
  unfold Store.upsertEvidence
  split
  · refine revives_map fun row => ?_
    split
    · rename_i same
      exact .inr (.inr same)
    · exact .inl rfl
  · exact revives_append rfl

/-- **Evidence of a supported event** leaves the rows supported. -/
theorem Rows.Supported.revives [LawfulDigests] (supported : rows.Supported b c K)
    (allowed : Settlement.Supported b c K event)
    (h : Revives b.settlementId event rows.evidence evidence) :
    Rows.Supported b c K { rows with evidence := evidence } := by
  refine ⟨supported.terms, supported.termsHash, supported.journal, ?_⟩
  intro row mem live other same derived
  rcases h row mem live with mem | own
  · exact supported.evidence row mem live other same derived
  · rw [own] at derived
    rw [(LawfulDigests.deriveEventId_inj derived).2]
    exact allowed

/-- **Invalidated evidence** needs no support any more. -/
theorem Rows.Supported.invalidate (supported : rows.Supported b c K) (fromHeight : UInt64)
    (weaker : ∀ evidence, K evidence → evidence.blockHeight < fromHeight → K' evidence) :
    Rows.Supported b c K' { rows with
      evidence := rows.evidence.map fun row =>
        if fromHeight ≤ row.reference.blockHeight && row.status ≠ .invalidated then
          { row with status := .invalidated }
        else row } := by
  refine ⟨supported.terms, supported.termsHash, supported.journal, ?_⟩
  intro row mem live event same derived
  obtain ⟨row₀, mem₀, rfl⟩ := List.mem_map.mp mem
  split at live
  · exact (live rfl).elim
  · rename_i missed
    rw [if_neg missed] at same derived
    have allowed := supported.evidence row₀ mem₀ live event same derived
    refine ⟨allowed.deep, fun evidence hevent => weaker evidence (allowed.claim evidence hevent) ?_⟩
    -- the row was not hit, so it lies below
    have below : row₀.reference.blockHeight < fromHeight := by
      simpa [live] using missed
    rw [hevent] at same
    cases same
    exact below

/-- **A commit of a supported event** leaves the rows supported. -/
theorem Rows.Supported.commitRows [LawfulDigests]
    (supported : rows.Supported b c K) (allowed : Settlement.Supported b c K req.env.event)
    (canonical : req.env.eventId = deriveEventId b.settlementId req.env.event) (reapplying : Bool) :
    (Store.commitRows rows reapplying req).Supported b c K := by
  have revived : Revives b.settlementId req.env.event rows.evidence
      (Store.commitRows rows reapplying req).evidence := by
    unfold Store.commitRows
    dsimp only
    split
    · rw [canonical]
      exact revives_upsert _ _ _ _
    · exact fun row mem _ => .inl mem
  refine ⟨supported.terms, supported.termsHash, fun row mem evidence same => ?_,
    (supported.revives allowed revived).evidence⟩
  rcases mem_snoc.mp mem with mem | rfl
  · exact supported.journal row mem evidence same
  · exact allowed.deep evidence same

theorem Store.Supported.setRows (same : s'.settlement = (s.setRows b.settlementId rows).settlement)
    (h : rows.Supported b c K) : s'.Supported b c K :=
  ⟨rows, by rw [same, Store.setRows_same], h⟩

/-- **A commit of a supported event** leaves the store supported. -/
theorem commitTransition_supported [LawfulDigests] {result : CommitResult}
    (own : req.env = b.envelopeFor req.env.event)
    (allowed : Supported b c K req.env.event) (h : s.commitTransition req = .ok (result, s'))
    (start : s.Supported b c K) : s'.Supported b c K := by
  have id : req.env.settlementId = b.settlementId := by rw [own]; rfl
  have canonical : req.env.eventId = deriveEventId b.settlementId req.env.event := by rw [own]; rfl
  obtain ⟨rows, found, supported⟩ := start
  obtain ⟨rows', found', ⟨row, -, -, -, rfl⟩ | ⟨-, h⟩ | ⟨row, -, -, -, -, h⟩⟩ :=
    Store.commitTransition_cases h
  · exact ⟨rows, found, supported⟩
  all_goals
    rw [id, found] at found'
    cases found'
    obtain ⟨outbox, -, -, rfl⟩ := Store.append_eq_ok.mp h
  · exact Store.Supported.setRows (by rw [id]) (supported.commitRows allowed canonical false)
  · have revived := revives_reaffirm b.settlementId req.env.event rows.evidence
    rw [← canonical] at revived
    exact Store.Supported.setRows (by rw [id])
      ((supported.revives allowed revived).commitRows allowed canonical true)

/-- Annotations of an ingestion revive at most the evidence of its event. -/
theorem annotation_supported [LawfulDigests] (own : env = b.envelopeFor env.event)
    (allowed : Supported b c K env.event) (h : IngestOp env cursorUpdate (.store op))
    {rows' : Rows} (written : Store.Annotation rows op id rows')
    (supported : rows.Supported b c K) : rows'.Supported b c K := by
  have canonical : env.eventId = deriveEventId b.settlementId env.event := by rw [own]; rfl
  cases written with
  | park id evidenceId reference =>
    obtain ⟨rfl, rfl, -⟩ := h
    exact supported.revives allowed (revives_append canonical)
  | invalidate id fromHeight => exact supported.invalidate fromHeight fun _ known _ => known
  | reaffirm id evidenceId =>
    obtain ⟨rfl, rfl⟩ := h
    rw [canonical]
    exact supported.revives allowed (revives_reaffirm _ _ _)
  | late id evidenceId terminal =>
    exact ⟨supported.terms, supported.termsHash, supported.journal, supported.evidence⟩

/-- **An ingestion of a supported event** leaves the store supported. -/
theorem ingestOp_supported [LawfulDigests]
    (own : env = b.envelopeFor env.event) (allowed : Supported b c K env.event)
    (h : IngestOp env cursorUpdate (.store op))
    (done : s.exec op = .ok (value, s')) (start : s.Supported b c K) : s'.Supported b c K := by
  obtain same | ⟨req, result, rfl, done⟩ | ⟨id, rows, rows', found, written, rfl⟩ :=
    Store.exec_cases done
  · obtain ⟨rows, found, supported⟩ := start
    exact ⟨rows, by rw [same, found], supported⟩
  · obtain ⟨rfl, -⟩ := h
    exact commitTransition_supported own allowed done start
  · obtain ⟨rows₀, found₀, supported⟩ := start
    have hid : id = b.settlementId := by
      cases written <;> first | exact h.1.trans (by rw [own]; rfl) | exact h.trans (by rw [own]; rfl)
    subst hid
    rw [found₀] at found
    cases found
    exact Store.Supported.setRows rfl (annotation_supported own allowed h written supported)

/-- Operations of an engine outside `ingestEvent` leave the store supported. -/
theorem engineOp_supported (h : b.EngineOp (.store op)) (done : s.exec op = .ok (value, s'))
    (start : s.Supported b c K) :
    s'.Supported b c K := by
  obtain same | ⟨req, result, rfl, done⟩ | ⟨id, rows, rows', found, written, rfl⟩ :=
    Store.exec_cases done
  · obtain ⟨rows, found, supported⟩ := start
    exact ⟨rows, by rw [same, found], supported⟩
  · exact False.elim h
  · cases written with
    | invalidate id fromHeight =>
      obtain ⟨rows₀, found₀, supported⟩ := start
      rw [show id = b.settlementId from h] at found ⊢
      rw [found₀] at found
      cases found
      exact Store.Supported.setRows rfl (supported.invalidate fromHeight fun _ known _ => known)
    | _ => exact False.elim h

end Supported

variable {b : Binding} {c : BlockChain} {K : EvidenceRef → Prop} {s s' : Store}
  {event : SettlementEvent} {status : EvidenceStatus} {found : List EvidenceRow} {row : EvidenceRow}

/-! ## The engine on a chain -/

/-- **A source that reports a chain faithfully**: the records of its scan are the batch, and its tip is
the last block. -/
def Reports (c : BlockChain) (batch : List ChainRecord) : (op : Op) → op.Reply → Prop
  | .chain (.scan _), .ok (records, _) => records = batch
  | .chain .tipHeight, .ok tip => IsTip c tip
  | _, _ => True

/-- An engine that has the store to itself, over such a source. -/
def watching (c : BlockChain) (batch : List ChainRecord) : Environment Ports Store :=
  .alone fun op s r s' => Store.step op s r s' ∧ Reports c batch op r

/-- A step of the store keeps what its operations keep. -/
theorem step_supported {op : Op} {r : op.Reply} (done : Store.step op s r s')
    (keeps : ∀ (op' : StoreOp) (value : op'.Result), op = .store op' → s.exec op' = .ok (value, s') →
      s.Supported b c K → s'.Supported b c K)
    (start : s.Supported b c K) : s'.Supported b c K := by
  cases op with
  | store op =>
    cases r with
    | error e => rw [done.1]; exact start
    | ok value => exact keeps op value rfl done start
  | chain _ | execute _ => rw [show s' = s from done]; exact start

omit [Digests] in
/-- Events without evidence are supported. -/
theorem supported_quiet (h : acceptedEvidence event = none) : Supported b c K event := by
  constructor
  · intro evidence confirmed
    cases event with
    | claimConfirmed _ => cases h
    | refundConfirmed _ => cases h
    | _ => cases confirmed
  · rintro evidence rfl
    cases h

/-- The rows a query for evidence returns. -/
theorem mem_of_evidence {id : SettlementId} (done : s.exec (.evidence id status) = .ok (found, s'))
    (mem : row ∈ found) :
    ∃ rows, s.settlement id = some rows ∧ row ∈ rows.evidence ∧ row.status = status := by
  cases done
  unfold Store.evidence at mem
  cases hrows : s.settlement id with
  | none =>
    rw [hrows] at mem
    cases mem
  | some rows =>
    rw [hrows] at mem
    have filtered := List.mem_filter.mp ((List.mem_insertionSort _).mp mem)
    exact ⟨rows, rfl, filtered.1, by simpa using filtered.2⟩

/-- Evidence that is returned as parked or applied is supported. -/
theorem Store.Supported.evidence (h : s.Supported b c K)
    (done : s.exec (.evidence b.settlementId status) = .ok (found, s'))
    (live : status ≠ .invalidated) (mem : row ∈ found)
    (same : acceptedEvidence event = some row.reference)
    (derived : deriveEventId b.settlementId event = row.evidenceId) :
    Settlement.Supported b c K event := by
  obtain ⟨rows, hrows, supported⟩ := h
  obtain ⟨rows', hrows', hrow, hstatus⟩ := mem_of_evidence done mem
  rw [hrows] at hrows'
  cases hrows'
  exact supported.evidence row hrow (hstatus ▸ live) event same derived

theorem engineCall_supported {op : Op} {s s' : Store} {r : op.Reply} (h : b.EngineOp op)
    (done : Store.step op s r s') : s.Supported b c K → s'.Supported b c K :=
  step_supported done fun op' value same => by
    subst same
    exact engineOp_supported h

/-- **The walk of an engine that only confirms deep evidence**: claims it reports are in `K`, and those
of them that are final under a tip it may be shown are deep. -/
def deepWalk [LawfulDigests] (b : Binding) (c : BlockChain) (batch : List ChainRecord)
    (K : EvidenceRef → Prop) (Tip : UInt64 → Prop)
    (deep : ∀ evidence tip, K evidence → Tip tip → b.isFinal evidence.blockHeight tip = true →
      Deep b.depth c evidence) : Walk (watching c batch) b where
  inv := Store.Supported b c K
  stable _ _ moved h := moved ▸ h
  Observed
    | .claim evidence => K evidence
    | .refund evidence => K evidence
    | _ => True
  Tip := Tip
  Position _ := True
  Env env := env = b.envelopeFor env.event ∧ Supported b c K env.event
  kept _ _ _ _ h _ done := engineCall_supported h done.1
  ingest {env cursorUpdate} M allowed _ := by
    refine (ingestEvent_silent env cursorUpdate).keeping fun op s r s' h done => ?_
    refine step_supported done.1 fun op' value same => ?_
    subst same
    exact ingestOp_supported allowed.1 allowed.2 h
  appliedFunding _ _ _ _ _ _ _ _ := trivial
  appliedClaim _ _ _ done start row mem derived :=
    (start.evidence done.1 nofun mem rfl derived).claim row.reference rfl
  parked _ _ _ done start _ mem _ same derived :=
    ⟨rfl, start.evidence done.1 nofun mem same derived⟩
  position _ _ _ _ _ _ _ := trivial
  quiet _ h := ⟨rfl, supported_quiet h⟩
  funding evidence _ := ⟨⟨rfl, nofun, nofun⟩, ⟨rfl, nofun, nofun⟩⟩
  claim evidence known := by
    refine ⟨⟨rfl, nofun, ?_⟩, fun tip shown final => ⟨rfl, ?_, nofun⟩⟩
    · rintro other ⟨⟩
      exact known
    · rintro other ⟨⟩
      exact deep evidence tip known shown final
  refund evidence known tip shown final := by
    refine ⟨rfl, ?_, nofun⟩
    rintro other ⟨⟩
    exact deep evidence tip known shown final

/-! ## A tick on a chain -/

/-- Evidence that is deep if it is final under the tip. -/
def Confirmable (b : Binding) (c : BlockChain) (evidence : EvidenceRef) : Prop :=
  ∀ tip, IsTip c tip → b.isFinal evidence.blockHeight tip = true → Deep b.depth c evidence

/-- A reorganisation still to come removes the evidence, or it is confirmable. -/
def Expected (b : Binding) (c : BlockChain) (rest : List ChainRecord) (evidence : EvidenceRef) : Prop :=
  (∃ height anchor, .reorg height anchor ∈ rest ∧ height ≤ evidence.blockHeight) ∨
    Confirmable b c evidence

/-- Claims and refunds an engine knows of: claims in its rows and in its buffer, and refunds that
wait. -/
inductive Knows (b : Binding) (s : Store) (engine : Engine) : EvidenceRef → Prop
  | claim {rows : Rows} {row : EvidenceRow} (found : s.settlement b.settlementId = some rows)
      (mem : row ∈ rows.evidence) (live : row.status ≠ .invalidated)
      (derived : deriveEventId b.settlementId (.claimEvidenceVerified row.reference) =
        row.evidenceId) : Knows b s engine row.reference
  | parked {env : EventEnvelope} {evidence : EvidenceRef} (mem : env ∈ engine.reorder)
      (event : env.event = .claimEvidenceVerified evidence) : Knows b s engine evidence
  | refund {evidence : EvidenceRef} (mem : evidence ∈ engine.pendingRefunds) :
      Knows b s engine evidence

/-- **What has enough confirmations for the policy is deep**: the claims and refunds of the batch, and
those the engine knows of and the batch does not remove. -/
structure Buried (b : Binding) (c : BlockChain) (s : Store) (engine : Engine)
    (batch : List ChainRecord) : Prop where
  records : ∀ evidence, .claim evidence ∈ batch ∨ .refund evidence ∈ batch → ∀ tip, IsTip c tip →
    b.isFinal evidence.blockHeight tip = true →
      evidence.blockHeight.toNat + b.depth < c.length
  known : ∀ evidence, Knows b s engine evidence →
    (∀ height anchor, .reorg height anchor ∈ batch → evidence.blockHeight < height) →
      Confirmable b c evidence

/-- The records of a batch are on the chain. -/
def Faithful (c : BlockChain) (batch : List ChainRecord) : Prop :=
  ∀ evidence, .funding evidence ∈ batch ∨ .claim evidence ∈ batch ∨ .refund evidence ∈ batch →
    OnChain c evidence

/-- What an engine remembers between two ticks. -/
structure Engine.Supported (b : Binding) (c : BlockChain) (engine : Engine) : Prop where
  binding : engine.binding = b
  reorder : ∀ env ∈ engine.reorder, env = b.envelopeFor env.event ∧
    Settlement.Supported b c (fun _ => True) env.event

section Tick

variable [LawfulDigests] {b : Binding} {c : BlockChain}

variable {engine : Engine} {batch : List ChainRecord} {evidence : EvidenceRef} {height : UInt64}
  {rest : List ChainRecord}

omit [LawfulDigests] in
/-- Before the batch, what the engine knows is removed by it or confirmable. -/
theorem Buried.expected {s : Store}
    (buried : Buried b c s engine batch) (known : Knows b s engine evidence) :
    Expected b c batch evidence := by
  by_cases removed : ∃ height anchor, .reorg height anchor ∈ batch ∧ height ≤ evidence.blockHeight
  · exact .inl removed
  · refine .inr (buried.known evidence known fun height anchor mem => ?_)
    rw [← UInt64.not_le]
    exact fun below => removed ⟨height, anchor, mem, below⟩

omit [Digests] [LawfulDigests] in
/-- Below a reorganisation, the rest is expected. -/
theorem Expected.below {anchor : Digest32} (h : Expected b c (.reorg height anchor :: rest) evidence)
    (below : evidence.blockHeight < height) : Expected b c rest evidence := by
  rcases h with ⟨height', anchor', mem, above⟩ | confirmable
  · rcases List.mem_cons.mp mem with same | mem
    · cases same
      exact absurd below (UInt64.not_lt.mpr above)
    · exact .inl ⟨height', anchor', mem, above⟩
  · exact .inr confirmable

omit [Digests] [LawfulDigests] in
/-- A record that is no reorganisation removes nothing. -/
theorem Expected.passed {record : ChainRecord}
    (other : ∀ height anchor, record ≠ .reorg height anchor)
    (h : Expected b c (record :: rest) evidence) : Expected b c rest evidence := by
  rcases h with ⟨height, anchor, mem, above⟩ | confirmable
  · rcases List.mem_cons.mp mem with rfl | mem
    · exact (other height anchor rfl).elim
    · exact .inl ⟨height, anchor, mem, above⟩
  · exact .inr confirmable

omit [LawfulDigests] in
/-- The rows after a reorganisation was reported. -/
theorem Store.Supported.invalidated {K K' : EvidenceRef → Prop} {s s' : Store}
    {count : Nat} (h : s.Supported b c K)
    (done : s.exec (.invalidateEvidenceFrom b.settlementId height) = .ok (count, s'))
    (weaker : ∀ evidence, K evidence → evidence.blockHeight < height → K' evidence) :
    s'.Supported b c K' := by
  obtain ⟨rows, found, supported⟩ := h
  simp only [Store.exec, Store.invalidateEvidenceFrom, bind_eq_ok, pure_eq_ok, found,
    Prod.mk.injEq] at done
  obtain ⟨-, -, -, rfl⟩ := done
  exact Store.Supported.setRows rfl (supported.invalidate height weaker)

/-- The walk with records still to come. -/
def stageWalk (b : Binding) (c : BlockChain) (batch rest : List ChainRecord) :
    Walk (watching c batch) b :=
  deepWalk b c batch (Expected b c rest) (fun tip => rest = [] ∧ IsTip c tip) (by
    rintro evidence tip (⟨height, anchor, mem, -⟩ | confirmable) ⟨rfl, shown⟩ final
    · cases mem
    · exact confirmable tip shown final)

/-- **The passage of a tick** whose batch is faithful and buried. -/
def deepPassage (b : Binding) (c : BlockChain) (batch : List ChainRecord)
    (confirmable : ∀ evidence, .claim evidence ∈ batch ∨ .refund evidence ∈ batch →
      Confirmable b c evidence) : Passage (watching c batch) b where
  stage := stageWalk b c batch
  batch := batch
  base := Store.Supported b c fun _ => True
  Base := Engine.Supported b c
  stable _ _ moved h := moved ▸ h
  kept _ _ h := Store.Supported.mono h fun _ _ => trivial
  remembered _ _ h := ⟨h.binding, fun env mem =>
    ⟨(h.reorder env mem).1, (h.reorder env mem).2.mono fun _ _ => trivial⟩⟩
  scanned s s' start records position done _ := by
    have same : records = batch := done.2
    subst same
    refine ⟨rfl, fun rest => ⟨trivial, fun record mem => ?_⟩⟩
    cases record with
    | claim evidence => exact .inr (confirmable evidence (.inl mem))
    | refund evidence => exact .inr (confirmable evidence (.inr mem))
    | _ => trivial
  tip _ _ _ done _ := ⟨rfl, done.2⟩
  passed record rest other := by
    refine ⟨fun s h => Store.Supported.mono h fun _ => Expected.passed other,
      fun engine memory => ⟨memory.binding, trivial, fun env mem => ?_, fun evidence mem => ?_⟩⟩
    · exact ⟨(memory.reorder env mem).1,
        (memory.reorder env mem).2.mono fun _ => Expected.passed other⟩
    · exact Expected.passed other (memory.pending evidence mem)
  invalidated _ _ _ _ _ _ done start := Store.Supported.invalidated start done.1 fun _ => Expected.below
  forgotten engine height anchor rest memory := by
    refine ⟨memory.binding, trivial, fun env mem => ?_, fun evidence mem => ?_⟩
    · obtain ⟨mem, kept⟩ := List.mem_filter.mp mem
      obtain ⟨own, supported⟩ := memory.reorder env mem
      refine ⟨own, supported.deep, fun evidence event => (supported.claim evidence event).below ?_⟩
      rw [event] at kept
      exact of_decide_eq_true kept
    · obtain ⟨mem, below⟩ := List.mem_filter.mp mem
      exact Expected.below (memory.pending evidence mem) (of_decide_eq_true below)

/-- **A tick** over a faithful and buried batch keeps rows and memory supported, wherever it stops. -/
theorem tick_supported {s : Store} (now : Int)
    (faithful : Faithful c batch) (buried : Buried b c s engine batch)
    (rows : s.Supported b c fun _ => True) (memory : engine.Supported b c) :
    Act.Safe (watching c batch) (Store.Supported b c fun _ => True) (tick now) engine s
      (fun _ engine' t => engine'.Supported b c ∧ t.Supported b c fun _ => True)
      (fun _ engine' t => engine'.Supported b c ∧ t.Supported b c fun _ => True) := by
  have confirmable (evidence : EvidenceRef)
      (mem : .claim evidence ∈ batch ∨ .refund evidence ∈ batch) : Confirmable b c evidence :=
    fun tip shown final => ⟨faithful evidence (.inr mem), buried.records evidence mem tip shown final⟩
  refine (deepPassage b c batch confirmable).tick now
    (fun _ _ _ _ h done => engineCall_supported h done.1) ⟨memory.binding, trivial, ?_, ?_⟩ ?_
  · intro env mem
    obtain ⟨own, supported⟩ := memory.reorder env mem
    exact ⟨own, supported.deep, fun evidence event => buried.expected (.parked mem event)⟩
  · exact fun evidence mem => buried.expected (.refund mem)
  · obtain ⟨rows, found, supported⟩ := rows
    refine ⟨rows, found, supported.terms, supported.termsHash, supported.journal, ?_⟩
    intro row mem live event same derived
    refine ⟨(supported.evidence row mem live event same derived).deep, ?_⟩
    rintro evidence rfl
    cases same
    exact buried.expected (.claim found mem live derived)

/-- Arming the refund keeps rows and memory supported. -/
theorem armRefund_supported {s : Store}
    (rows : s.Supported b c fun _ => True) (memory : engine.Supported b c) :
    Act.Safe (watching c []) (Store.Supported b c fun _ => True) armRefund engine s
      (fun _ engine' t => engine'.Supported b c ∧ t.Supported b c fun _ => True)
      (fun _ engine' t => engine'.Supported b c ∧ t.Supported b c fun _ => True) := by
  let W := deepWalk b c [] (fun _ => True) (fun _ => False) nofun
  refine ((W.armRefund).safe engine s ⟨memory.binding, trivial, memory.reorder, fun _ _ => trivial⟩
    rows).mono ?_ ?_
  · exact fun _ _ _ h => ⟨⟨h.1.binding, h.1.reorder⟩, h.2.2⟩
  · exact fun _ _ _ h => ⟨⟨h.1.binding, h.1.reorder⟩, h.2⟩

omit [LawfulDigests] in
/-- The terms the store shows are those of the binding. -/
theorem Store.Supported.terms {K : EvidenceRef → Prop} {s s' : Store} (h : s.Supported b c K)
    {found : Option (SettlementTerms × Digest32)}
    (done : s.exec (.terms b.settlementId) = .ok (found, s')) {terms : SettlementTerms}
    {termsHash : Digest32} (same : found = some (terms, termsHash)) :
    terms = b.terms ∧ termsHash = b.termsHash := by
  obtain ⟨rows, hrows, supported⟩ := h
  obtain ⟨value, read, shown⟩ := Store.map_pair_eq_ok done
  cases shown
  simp only [Store.terms, hrows, bind_eq_ok, pure_eq_ok, same, Option.some.injEq,
    Prod.mk.injEq] at read
  obtain ⟨-, -, -, -, rfl, rfl⟩ := read
  exact ⟨supported.terms, supported.termsHash⟩

/-- **An engine that is opened** remembers what the rows support. -/
theorem openEngine_supported {s : Store} (policy : policyOf b.terms = .ok b.policy)
    (rows : s.Supported b c fun _ => True) :
    Act.Safe (watching c []) (Store.Supported b c fun _ => True)
      (openEngine b.chainId b.settlementId) () s
      (fun engine _ t => engine.Supported b c ∧ t.Supported b c fun _ => True)
      (fun _ _ t => t.Supported b c fun _ => True) := by
  let W := deepWalk b c [] (fun _ => True) (fun _ => False) nofun
  have opens : Act.Keeping W.regime (fun _ => True) (Engine.Supported b c)
      (openEngine b.chainId b.settlementId) := by
    refine openEngine_keeping (Q := fun found => ∀ terms termsHash, found = some (terms, termsHash) →
      terms = b.terms ∧ termsHash = b.termsHash) ?_ ?_ ?_
    · refine Act.Keeping.mapError _ (Act.Keeping.call (I := Ports) (Op.store (.terms b.settlementId))
        (fun r => r) (fun s r s' done start => ?_) ?_)
      · exact step_supported done.1 (fun op value same h start => by
          cases same
          obtain ⟨_, -, read⟩ := Store.map_pair_eq_ok h
          cases read
          exact start) start
      · rintro s r s' found done start rfl terms termsHash same
        exact start.terms done.1 same
    · exact W.askChain .genesisCursor (W.kept _ · · · trivial trivial) fun _ _ _ _ _ => trivial
    · rintro terms termsHash policy' scanCursor shown - hpolicy
      obtain ⟨rfl, rfl⟩ := shown terms termsHash rfl
      rw [policy] at hpolicy
      cases hpolicy
      refine ⟨W.Memory, ⟨rfl, trivial, ?_, fun _ _ => trivial⟩, W.recover,
        fun engine h => ⟨h.binding, h.reorder⟩⟩
      intro env mem
      cases mem
  exact (opens.safe () s trivial rows).mono (fun _ _ _ h => h.2) fun _ _ _ h => h.2

end Tick

/-! ## Runs -/

/-- A chain, the store, and the engine unless it is down. -/
structure World where
  chain : BlockChain
  store : Store
  engine : Option Engine

/-- What may happen. -/
inductive Happening where
  | chain (c' : BlockChain)
  | tick (now : Int) (batch : List ChainRecord)
  | armRefund
  | «open»

/-- A program of the engine runs, to its end or until the engine crashes. -/
def World.Runs {α : Type} (w : World) (batch : List ChainRecord) (p : Prog Ports α)
    (left : α → Engine → Prop) (w' : World) : Prop :=
  ∃ p', Prog.Steps (watching w.chain batch) p w.store p' w'.store ∧ w'.chain = w.chain ∧
    (w'.engine = none ∨ ∃ a engine, p' = .done a ∧ left a engine ∧ w'.engine = some engine)

/-- **What happens**: the chain is reorganised no deeper than the terms tolerate, and the source
reports it faithfully. -/
def World.Happens (b : Binding) (w : World) : Happening → World → Prop
  | .chain c', w' => Reorganised b.depth w.chain c' ∧ w' = { w with chain := c' }
  | .tick now batch, w' => Faithful w.chain batch ∧ ∃ engine, w.engine = some engine ∧
      w.Runs batch (tick now engine) (fun outcome engine' => outcome.2 = engine') w'
  | .armRefund, w' => ∃ engine, w.engine = some engine ∧
      w.Runs [] (armRefund engine) (fun outcome engine' => outcome.2 = engine') w'
  | .open, w' => w.Runs [] (openEngine b.chainId b.settlementId ())
      (fun outcome engine => outcome.1 = .ok engine) w'

/-- **When terminal evidence is safe**: the chain is not shortened, and at a tick all that has enough
confirmations is deep. -/
def World.Safe (b : Binding) (w : World) : Happening → Prop
  | .chain c' => w.chain.length ≤ c'.length
  | .tick _ batch => ∀ engine, w.engine = some engine → Buried b w.chain w.store engine batch
  | _ => True

/-- A run. -/
def WorldRun (b : Binding) : World → World → Prop :=
  Relation.ReflTransGen fun w w' => ∃ h, w.Happens b h w'

/-- A run whose every step is safe. -/
def SafeRun (b : Binding) : World → World → Prop :=
  Relation.ReflTransGen fun w w' => ∃ h, w.Safe b h ∧ w.Happens b h w'

/-- The rows and the engine are supported by the chain. -/
structure World.Supported (b : Binding) (w : World) : Prop where
  store : w.store.Supported b w.chain fun _ => True
  engine : ∀ engine, w.engine = some engine → engine.Supported b w.chain

section Runs

variable [LawfulDigests] {b : Binding} {w w' : World}

omit [LawfulDigests] in
/-- A program that is safe leaves a supported world. -/
theorem World.Runs.supported {α : Type} {batch : List ChainRecord} {p : Prog Ports α}
    {left : α → Engine → Prop} (runs : w.Runs batch p left w')
    (start : w.store.Supported b w.chain fun _ => True)
    (safe : p.Safe (watching w.chain batch) (Store.Supported b w.chain fun _ => True)
      (fun a _ => ∀ engine, left a engine → engine.Supported b w.chain) w.store) :
    w'.Supported b := by
  obtain ⟨p', steps, chain, engine⟩ := runs
  have store := safe.inv_of_steps (fun _ _ moved h => moved ▸ h) start steps
  rw [← chain] at store safe
  refine ⟨store, fun engine' running => ?_⟩
  rcases engine with down | ⟨a, engine, rfl, hleft, up⟩
  · rw [down] at running
    cases running
  · rw [up] at running
    cases running
    exact safe.post_of_steps (chain ▸ steps) _ hleft

/-- **A safe step** keeps the world supported. -/
theorem World.Supported.step {h : Happening} (policy : policyOf b.terms = .ok b.policy)
    (safe : w.Safe b h) (happens : w.Happens b h w') (start : w.Supported b) : w'.Supported b := by
  cases h with
  | chain c' =>
    obtain ⟨reorganised, rfl⟩ := happens
    have steady : Steady b.depth w.chain c' := ⟨reorganised, safe⟩
    refine ⟨start.store.steady steady, fun engine up => ⟨(start.engine engine up).binding, ?_⟩⟩
    intro env mem
    obtain ⟨own, supported⟩ := (start.engine engine up).reorder env mem
    exact ⟨own, supported.steady steady⟩
  | tick now batch =>
    obtain ⟨faithful, engine, up, runs⟩ := happens
    refine runs.supported start.store (Prog.Safe.mono (tick_supported now faithful (safe engine up)
      start.store (start.engine engine up)) ?_)
    rintro ⟨_ | _, engine'⟩ t after _ rfl <;> exact after.1
  | armRefund =>
    obtain ⟨engine, up, runs⟩ := happens
    refine runs.supported start.store (Prog.Safe.mono (armRefund_supported start.store
      (start.engine engine up)) ?_)
    rintro ⟨_ | _, engine'⟩ t after _ rfl <;> exact after.1
  | «open» =>
    refine World.Runs.supported happens start.store
      (Prog.Safe.mono (openEngine_supported policy start.store) ?_)
    rintro ⟨_ | engine, _⟩ t after engine' ⟨⟩
    exact after.1

omit [LawfulDigests] in
/-- A new settlement is supported by every chain. -/
theorem Created.supported {s : Store} (created : Created s) {rows : Rows}
    (found : s.settlement b.settlementId = some rows) (same : rows.terms = b.terms)
    (hash : rows.termsHash = b.termsHash) (c : BlockChain) :
    s.Supported b c fun _ => True := by
  obtain ⟨terms, _, -, -, rfl⟩ := created.rows.2 _ _ found
  refine ⟨_, found, same, hash, fun row mem => ?_, fun row mem => ?_⟩ <;> cases mem

/-- **A safe run** keeps the world supported. -/
theorem World.Supported.run (policy : policyOf b.terms = .ok b.policy) (run : SafeRun b w w')
    (start : w.Supported b) : w'.Supported b := by
  induction run with
  | refl => exact start
  | tail _ step ih =>
    obtain ⟨h, safe, happens⟩ := step
    exact ih.step policy safe happens

/-- **Terminal evidence stays on the chain**: in every run whose every step is safe, the block of each
claim or refund the engine has confirmed is on the chain, now and for ever. -/
theorem terminal_evidence_stays {s₀ : Store} {c₀ : BlockChain} {rows₀ rows : Rows}
    (created : Created s₀) (found₀ : s₀.settlement b.settlementId = some rows₀)
    (terms : rows₀.terms = b.terms) (termsHash : rows₀.termsHash = b.termsHash)
    (policy : policyOf b.terms = .ok b.policy) (run : SafeRun b ⟨c₀, s₀, none⟩ w)
    (found : w.store.settlement b.settlementId = some rows) {row : JournalRow}
    (mem : row ∈ rows.journal) {evidence : EvidenceRef}
    (confirmed : row.envelope.event.confirms = some evidence) :
    ∀ c', Relation.ReflTransGen (Steady b.depth) w.chain c' → OnChain c' evidence := by
  have start : World.Supported b ⟨c₀, s₀, none⟩ :=
    ⟨created.supported found₀ terms termsHash c₀, fun _ up => (Option.some_ne_none _ up.symm).elim⟩
  obtain ⟨rows', found', supported⟩ := (start.run policy run).store
  rw [found] at found'
  cases found'
  exact deep_iff_stays.mp (supported.journal row mem evidence confirmed)

end Runs

end Finality

section Example

attribute [local instance] freeDigests freeDigests_lawful

/-- A source over a chain whose scan shows a batch. -/
def exampleSource (c : BlockChain) (batch : List ChainRecord) : (op : Op) → Store → op.Reply × Store
  | .chain .genesisCursor, s => (.ok ⟨[], 0, 0⟩, s)
  | .chain (.scan _), s => (.ok (batch, ⟨[], .ofNat (c.length - 1), 0⟩), s)
  | .chain .tipHeight, s => (.ok (.ofNat (c.length - 1)), s)
  | op, s => Store.respond op s

theorem exampleSource_reports {c : BlockChain} (nonempty : 0 < c.length) (fits : c.length ≤ 2 ^ 64)
    (batch : List ChainRecord) (op : Op) (s : Store) :
    (watching c batch).step op s (exampleSource c batch op s).1 (exampleSource c batch op s).2 := by
  cases op with
  | store op => exact ⟨Store.respond_step (.store op) s, trivial⟩
  | chain op =>
    cases op with
    | tipHeight =>
      refine ⟨rfl, ?_⟩
      have small : c.length - 1 < 2 ^ 64 := by omega
      have tip : (UInt64.ofNat (c.length - 1)).toNat = c.length - 1 :=
        UInt64.toNat_ofNat_of_lt' small
      show (UInt64.ofNat (c.length - 1)).toNat + 1 = c.length
      omega
    | _ => exact ⟨rfl, by trivial⟩
  | execute effect => exact ⟨rfl, trivial⟩

/-- What the engine of the example is bound to. -/
def exampleBinding : Binding := (exampleEngine 1).binding

/-- The claim of the example, at height 2. -/
def exampleClaim : EvidenceRef := ⟨0, 8, 0, 2, 2⟩

/-- The funding, at height 1, and the claim. -/
def exampleBatch : List ChainRecord := [.funding ⟨0, 7, 0, 1, 1⟩, .claim exampleClaim]

/-- A program runs on a store, and the engine is as it left it. -/
def exampleRan {α : Type} (c : BlockChain) (batch : List ChainRecord)
    (x : EngineAct α) (engine : Engine) (s : Store) : World :=
  ⟨c, ((x engine).run (exampleSource c batch) s).2,
    some ((x engine).run (exampleSource c batch) s).1.2⟩

theorem exampleRan_runs {α : Type} {c : BlockChain} (nonempty : 0 < c.length)
    (fits : c.length ≤ 2 ^ 64) (batch : List ChainRecord) (x : EngineAct α) (engine : Engine)
    (s : Store) (up : Option Engine) :
    World.Runs ⟨c, s, up⟩ batch (x engine) (fun outcome engine' => outcome.2 = engine')
      (exampleRan c batch x engine s) :=
  ⟨_, Prog.steps_run (exampleSource_reports nonempty fits batch) (x engine) s, rfl,
    .inr ⟨_, _, rfl, rfl, rfl⟩⟩

/-- The engine that armed the refund, and its store. -/
def armedExample (c : BlockChain) : Engine × Store :=
  let ran := (armRefund (exampleEngine 1)).run (exampleSource c []) (exampleStore [1])
  (ran.1.2, ran.2)

/-- The engine has ticked over the batch. -/
def tickedWorld (c : BlockChain) : World :=
  exampleRan c exampleBatch (tick 0) (armedExample c).1 (armedExample c).2

theorem tickedWorld_chain (c : BlockChain) : (tickedWorld c).chain = c := rfl

section Steps

variable {c : BlockChain} (nonempty : 0 < c.length) (fits : c.length ≤ 2 ^ 64)

include nonempty fits

/-- The engine is opened. -/
theorem example_opens : World.Happens exampleBinding ⟨c, exampleStore [1], none⟩ .open
    ⟨c, exampleStore [1], some (exampleEngine 1)⟩ := by
  have opened : (openEngine 0 1 ()).run (exampleSource c []) (exampleStore [1]) =
      ((.ok (exampleEngine 1), ()), exampleStore [1]) := rfl
  have run := Prog.steps_run (exampleSource_reports nonempty fits []) (openEngine 0 1 ())
    (exampleStore [1])
  rw [opened] at run
  exact ⟨_, run, rfl, .inr ⟨_, _, rfl, rfl, rfl⟩⟩

/-- The refund is armed. -/
theorem example_arms : World.Happens exampleBinding ⟨c, exampleStore [1], some (exampleEngine 1)⟩
    .armRefund ⟨c, (armedExample c).2, some (armedExample c).1⟩ :=
  ⟨exampleEngine 1, rfl, exampleRan_runs nonempty fits [] armRefund _ _ _⟩

/-- The engine ticks. -/
theorem example_ticks (faithful : Faithful c exampleBatch) :
    World.Happens exampleBinding ⟨c, (armedExample c).2, some (armedExample c).1⟩
      (.tick 0 exampleBatch) (tickedWorld c) :=
  ⟨faithful, (armedExample c).1, rfl, exampleRan_runs nonempty fits exampleBatch (tick 0) _ _ _⟩

end Steps

/-- The claim is confirmed. -/
def ClaimConfirmed (w : World) : Prop :=
  ∃ rows, w.store.settlement exampleBinding.settlementId = some rows ∧
    ∃ row ∈ rows.journal, row.envelope.event = .claimConfirmed exampleClaim

theorem claimConfirmed_of_events {w : World}
    (h : ((w.store.settlement exampleBinding.settlementId).map fun rows =>
      rows.journal.any (·.envelope.event = .claimConfirmed exampleClaim)) = some true) :
    ClaimConfirmed w := by
  obtain ⟨rows, found, confirmed⟩ := Option.map_eq_some_iff.mp h
  obtain ⟨row, mem, same⟩ := List.any_eq_true.mp confirmed
  exact ⟨rows, found, row, mem, of_decide_eq_true same⟩

theorem faithful_example {chain : BlockChain} (funding : chain[1]? = some 1)
    (claim : chain[2]? = some 2) : Faithful chain exampleBatch := by
  intro evidence mem
  simp only [exampleBatch, List.mem_cons, List.not_mem_nil, or_false, reduceCtorEq, false_or,
    ChainRecord.funding.injEq, ChainRecord.claim.injEq] at mem
  rcases mem with rfl | rfl
  · exact funding
  · exact claim

/-- What the engine knows before it ticks: nothing. -/
theorem buried_example {c : BlockChain} (knows : (armedExample c).1.reorder = [] ∧
      (armedExample c).1.pendingRefunds = [] ∧
      ((armedExample c).2.settlement 1).map (·.evidence) = some [])
    (deep : exampleClaim.blockHeight.toNat + exampleBinding.depth < c.length) :
    Buried exampleBinding c (armedExample c).2 (armedExample c).1 exampleBatch := by
  obtain ⟨reorder, pending, evidence⟩ := knows
  refine ⟨fun claim mem tip _ _ => ?_, fun claim known => ?_⟩
  · simp only [exampleBatch, List.mem_cons, List.not_mem_nil, or_false, reduceCtorEq, false_or,
      ChainRecord.claim.injEq] at mem
    rw [mem]
    exact deep
  · cases known with
    | claim found mem =>
      rw [show exampleBinding.settlementId = 1 from rfl] at found
      rw [found, Option.map_some, Option.some.injEq] at evidence
      rw [evidence] at mem
      cases mem
    | parked mem =>
      rw [reorder] at mem
      cases mem
    | refund mem =>
      rw [pending] at mem
      cases mem

/-- With four confirmations, the claim of the example stays. -/
theorem terminal_evidence_stays_claim : ClaimConfirmed (tickedWorld [0, 1, 2, 3, 4, 5]) ∧
    ∀ c', Relation.ReflTransGen (Steady exampleBinding.depth) [0, 1, 2, 3, 4, 5] c' →
      OnChain c' exampleClaim := by
  have faithful : Faithful [0, 1, 2, 3, 4, 5] exampleBatch := faithful_example rfl rfl
  have buried := buried_example (c := [0, 1, 2, 3, 4, 5]) (by decide +kernel) (by decide)
  have run : SafeRun exampleBinding ⟨[0, 1, 2, 3, 4, 5], exampleStore [1], none⟩
      (tickedWorld [0, 1, 2, 3, 4, 5]) := by
    refine .head ⟨.open, trivial, example_opens (by simp) (by simp)⟩ ?_
    refine .head ⟨.armRefund, trivial, example_arms (by simp) (by simp)⟩ ?_
    refine .single ⟨.tick 0 exampleBatch, ?_, example_ticks (by simp) (by simp) faithful⟩
    intro engine up
    rw [← Option.some.inj up]
    exact buried
  have confirmed : ClaimConfirmed (tickedWorld [0, 1, 2, 3, 4, 5]) :=
    claimConfirmed_of_events (by decide +kernel)
  refine ⟨confirmed, ?_⟩
  obtain ⟨rows, found, row, mem, event⟩ := confirmed
  obtain ⟨rows₀, found₀, terms, termsHash⟩ : ∃ rows,
      (exampleStore [1]).settlement exampleBinding.settlementId = some rows ∧
        rows.terms = exampleBinding.terms ∧ rows.termsHash = exampleBinding.termsHash :=
    ⟨_, rfl, rfl, rfl⟩
  have confirms : row.envelope.event.confirms = some exampleClaim := by
    rw [event]
    rfl
  have stays := terminal_evidence_stays (exampleStore_created [1]) found₀ terms termsHash rfl run
    found mem confirms
  rw [tickedWorld_chain] at stays
  exact stays

/-- The blocks from the claim on are replaced. -/
def removedWorld : World :=
  ⟨[0, 1, 12, 13, 14], (tickedWorld [0, 1, 2, 3]).store, (tickedWorld [0, 1, 2, 3]).engine⟩

theorem example_removes : (tickedWorld [0, 1, 2, 3]).Happens exampleBinding
    (.chain [0, 1, 12, 13, 14]) removedWorld := by
  refine ⟨?_, rfl⟩
  rw [tickedWorld_chain]
  exact ⟨[0, 1], [2, 3], [12, 13, 14], rfl, rfl, by decide⟩

/-- **A confirmed claim is removed**: with valid terms that require two confirmations and tolerate
reorganisations of two blocks, the claim is confirmed at its second confirmation, and then its block
is replaced. -/
theorem confirmed_claim_removed : (exampleTerms 1).validate = .ok () ∧
    WorldRun exampleBinding ⟨[0, 1, 2, 3], exampleStore [1], none⟩ removedWorld ∧
      ClaimConfirmed removedWorld ∧ ¬ OnChain removedWorld.chain exampleClaim := by
  have faithful : Faithful [0, 1, 2, 3] exampleBatch := faithful_example rfl rfl
  refine ⟨by decide, ?_, claimConfirmed_of_events (by decide +kernel), ?_⟩
  · refine .head ⟨.open, example_opens (by simp) (by simp)⟩ ?_
    refine .head ⟨.armRefund, example_arms (by simp) (by simp)⟩ ?_
    refine .head ⟨.tick 0 exampleBatch, example_ticks (by simp) (by simp) faithful⟩ ?_
    exact .single ⟨.chain [0, 1, 12, 13, 14], example_removes⟩
  · rw [show removedWorld.chain = [0, 1, 12, 13, 14] from rfl]
    unfold OnChain
    decide

end Example

end DomProtocol.Settlement
