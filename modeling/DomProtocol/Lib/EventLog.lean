import DomProtocol.Lib.Octets
import DomProtocol.Lib.Checked

/-! # Event-sourced drivers

A driver keeps a state in memory and the events that led to it in an append-only log of frames. An
event is first decided on a copy of the state, then appended, and only then made visible; opening
the driver replays the log. **`Driver.Step`** is the system of a **`Driver`** and its log when calls
may be refused, appends may fail and the process may stop at any point.

Frames that decode to what was encoded keep the log in step with the driver
(`Driver.reachable_tracked`), and a log opens again to the driver that wrote it unless it is too
long (`Driver.reopens_iff`). -/

namespace DomProtocol

variable {σ ε ρ δ : Type}

/-- What an event-sourced driver is made of: the pure decision, the codec of its frames and the names
of its failures. -/
structure Driver (σ ε ρ δ : Type) where
  start : σ
  cap : Nat
  apply : σ → ε → Except ρ σ
  encode : UInt64 → ε → Except δ Bytes
  decode : Bytes → Except δ (UInt64 × ε)
  refused : ρ → δ
  divergence : ρ → δ
  gap : δ
  tooLarge : δ
  overflow : δ

/-- A driver in memory, with the log it owns. -/
structure Journalled (σ : Type) where
  log : List Bytes
  state : σ
  revision : UInt64

namespace Driver

variable (D : Driver σ ε ρ δ)

/-- Replay frames, the first of which must carry revision `index`. -/
def replayFrom (index : Nat) (s : σ) : List Bytes → Except δ σ
  | [] => pure s
  | frame :: frames => do
    let (revision, event) ← D.decode frame
    rejectIf (revision ≠ UInt64.ofNat index) D.gap
    let next ← mapError D.divergence (D.apply s event)
    replayFrom (index + 1) next frames

/-- Open the driver over a log, replaying every frame. -/
def openLog (log : List Bytes) : Except δ (Journalled σ) := do
  rejectIf (log.length > D.cap) D.tooLarge
  let state ← D.replayFrom 0 D.start log
  pure ⟨log, state, UInt64.ofNat log.length⟩

/-- Record one event: decide, append, advance. The answer of the log to the append is a parameter; a
failed append leaves the log unchanged. -/
def record (append : Except δ Unit) (d : Journalled σ) (event : ε) : Except δ Unit × Journalled σ :=
  match D.apply d.state event with
  | .error refusal => (.error (D.refused refusal), d)
  | .ok next =>
    match D.encode d.revision event with
    | .error e => (.error e, d)
    | .ok frame =>
      match append with
      | .error e => (.error e, d)
      | .ok () =>
        match checkedAdd d.revision 1 with
        | none => (.error D.overflow, { d with log := d.log ++ [frame], state := next })
        | some revision => (.ok (), ⟨d.log ++ [frame], next, revision⟩)

/-! ## What a call does -/

/-- An event is **appended** when the state accepts it and its frame is at the end of the log; the
call counts it and succeeds unless the counter is exhausted. -/
structure Appends (d : Journalled σ) (event : ε) (answer : Except δ Unit) (d' : Journalled σ) :
    Prop where
  accepted : D.apply d.state event = .ok d'.state
  frame : ∃ bytes, D.encode d.revision event = .ok bytes ∧ d'.log = d.log ++ [bytes]
  counted : d.revision.toNat < 2 ^ 64 - 1 →
    answer = .ok () ∧ d'.revision.toNat = d.revision.toNat + 1

/-- A call either fails and changes nothing, or appends an event. -/
def Effect (d : Journalled σ) (answer : Except δ Unit) (d' : Journalled σ) : Prop :=
  ((∃ e, answer = .error e) ∧ d' = d) ∨ ∃ event, D.Appends d event answer d'

variable {D}

variable {d d' : Journalled σ} {event : ε} {answer : Except δ Unit}

/-- **Recording an event** fails without a trace or appends it. -/
theorem record_cases {append : Except δ Unit} (h : D.record append d event = (answer, d')) :
    ((∃ e, answer = .error e) ∧ d' = d) ∨ D.Appends d event answer d' := by
  unfold record at h
  split at h
  · cases h
    exact .inl ⟨⟨_, rfl⟩, rfl⟩
  · rename_i next accepted
    split at h
    · cases h
      exact .inl ⟨⟨_, rfl⟩, rfl⟩
    · rename_i bytes encoded
      split at h
      · cases h
        exact .inl ⟨⟨_, rfl⟩, rfl⟩
      · split at h
        · -- the counter is exhausted, so the counting clause says nothing
          rename_i exhausted
          cases h
          refine .inr ⟨accepted, ⟨bytes, encoded, rfl⟩, fun below => ?_⟩
          have full := checkedAdd_eq_none.mp exhausted
          change 2 ^ 64 ≤ d.revision.toNat + 1 at full
          omega
        · rename_i revision counted
          cases h
          exact .inr ⟨accepted, ⟨bytes, encoded, rfl⟩, fun _ => ⟨rfl, checkedAdd_eq_some.mp counted⟩⟩

/-- Recording an event records at most one event. -/
theorem record_effect (append : Except δ Unit) (d : Journalled σ) (event : ε) :
    D.Effect d (D.record append d event).1 (D.record append d event).2 :=
  (record_cases rfl).imp id fun appends => ⟨event, appends⟩

/-- A failure without a trace is the effect of a call. -/
theorem Effect.failed (d : Journalled σ) (e : δ) : D.Effect d (.error e) d := .inl ⟨⟨e, rfl⟩, rfl⟩

/-! ## The events of a log -/

variable (D) in
/-- Frames decode to what was encoded. -/
structure Exact : Prop where
  decode_encode : ∀ {revision event bytes}, D.encode revision event = .ok bytes →
    D.decode bytes = .ok (revision, event)

variable (D) in
/-- The log holds these events, in order. -/
def Written (log : List Bytes) (events : List ε) : Prop :=
  List.Forall₂ (fun bytes event => ∃ revision, D.encode revision event = .ok bytes) log events

variable (D) in
/-- The log holds these events under the revisions `index`, `index + 1`, …. -/
def Numbered : Nat → List Bytes → List ε → Prop
  | _, [], [] => True
  | index, bytes :: log, event :: events =>
    D.encode (UInt64.ofNat index) event = .ok bytes ∧ Numbered (index + 1) log events
  | _, _, _ => False

variable (D) in
/-- What the events amount to. -/
def replay (events : List ε) : Except ρ σ := events.foldlM D.apply D.start

variable (D) in
/-- **A driver tracks events** when its log holds them and its state is what they amount to. -/
structure Tracks (d : Journalled σ) (events : List ε) : Prop where
  written : D.Written d.log events
  replayed : D.replay events = .ok d.state

variable {events : List ε} {s s' : σ}

theorem replay_snoc (replayed : D.replay events = .ok s)
    (accepted : D.apply s event = .ok s') : D.replay (events ++ [event]) = .ok s' := by
  unfold replay at *
  simp only [List.foldlM_append, replayed, List.foldlM_cons, List.foldlM_nil, bind_pure]
  exact accepted

/-- **Induction over a replay**: what holds at the start and is kept by every accepted event holds of
the events and the state they lead to. -/
theorem replay_invariant (Inv : List ε → σ → Prop) (start : Inv [] D.start)
    (accept : ∀ {events s event s'}, Inv events s → D.apply s event = .ok s' →
      Inv (events ++ [event]) s') (replayed : D.replay events = .ok s) : Inv events s := by
  induction events using List.reverseRecOn generalizing s with
  | nil =>
    cases replayed
    exact start
  | append_singleton events event ih =>
    simp only [replay, List.foldlM_append, List.foldlM_cons, List.foldlM_nil, bind_pure,
      bind_eq_ok] at replayed
    obtain ⟨before, earlier, accepted⟩ := replayed
    exact accept (ih earlier) accepted

variable {bytes : Bytes}

theorem Written.snoc {log : List Bytes} (written : D.Written log events)
    {revision : UInt64} (encoded : D.encode revision event = .ok bytes) :
    D.Written (log ++ [bytes]) (events ++ [event]) :=
  List.rel_append written (.cons ⟨revision, encoded⟩ .nil)

theorem Tracks.appends (tracks : D.Tracks d events) (appends : D.Appends d event answer d') :
    D.Tracks d' (events ++ [event]) where
  written := by
    obtain ⟨bytes, encoded, log⟩ := appends.frame
    rw [log]
    exact tracks.written.snoc encoded
  replayed := replay_snoc tracks.replayed appends.accepted

variable {index : Nat}

/-- Replay decides the events in the log one after the other. -/
theorem foldlM_of_replayFrom (codec : D.Exact) {log : List Bytes} (written : D.Written log events)
    (run : D.replayFrom index s log = .ok s') : events.foldlM D.apply s = .ok s' := by
  induction written generalizing index s with
  | nil =>
    cases run
    rfl
  | cons head _ ih =>
    obtain ⟨revision, encoded⟩ := head
    simp only [replayFrom, codec.decode_encode encoded, bind_eq_ok, rejectIf_eq_ok,
      mapError_eq_ok] at run
    obtain ⟨_, ⟨⟩, _, -, next, accepted, rest⟩ := run
    simp only [List.foldlM_cons, bind_eq_ok]
    exact ⟨next, accepted, ih rest⟩

theorem tracks_of_openLog (codec : D.Exact) {log : List Bytes}
    (written : D.Written log events) (opened : D.openLog log = .ok d) :
    D.Tracks d events := by
  simp only [openLog, bind_eq_ok, rejectIf_eq_ok, pure_eq_ok] at opened
  obtain ⟨_, -, s, run, rfl⟩ := opened
  exact ⟨written, foldlM_of_replayFrom codec written run⟩

/-- The frames of a written log decode to its events. -/
theorem Written.filterMap_decode (codec : D.Exact) {log : List Bytes}
    (written : D.Written log events) :
    log.filterMap (fun frame => (D.decode frame).toOption.map Prod.snd) = events := by
  induction written with
  | nil => rfl
  | cons head _ ih =>
    obtain ⟨revision, encoded⟩ := head
    rw [List.filterMap_cons_some (b := _) (by rw [codec.decode_encode encoded]; rfl), ih]

/-! ## A driver and its log as a system -/

/-- The process runs, or only its log is left. -/
inductive Node (σ : Type) where
  | running (d : Journalled σ)
  | stopped (log : List Bytes)

/-- The log of a node. -/
def Node.log : Node σ → List Bytes
  | .running d => d.log
  | .stopped log => log

variable {C : Type} (step : C → Journalled σ → Except δ Unit × Journalled σ)

variable (D) in
/-- **One step of the system**: a call, a stop between calls or inside one (before its append, or
after it), or the opening of a new process. -/
inductive Step : Node σ → Node σ → Prop
  | call (c : C) (d : Journalled σ) : Step (.running d) (.running (step c d).2)
  | stop (d : Journalled σ) : Step (.running d) (.stopped d.log)
  | cut (c : C) (d : Journalled σ) : Step (.running d) (.stopped (step c d).2.log)
  | «open» {log : List Bytes} {d : Journalled σ} (opened : D.openLog log = .ok d) :
      Step (.stopped log) (.running d)

variable (D) in
/-- Every call records at most one event. -/
def Recording : Prop := ∀ c d, D.Effect d (step c d).1 (step c d).2

variable (D) in
/-- A node tracks events when its log holds them, they are accepted in order, and the state of a
running process is what they amount to. -/
def Tracked : Node σ → List ε → Prop
  | .running d, events => D.Tracks d events
  | .stopped log, events => D.Written log events ∧ ∃ s, D.replay events = .ok s

variable {n : Node σ}

/-- The log of a tracked node holds the events, and they replay, to the state of a running process. -/
theorem Tracked.replayed (tracked : D.Tracked n events) :
    D.Written n.log events ∧ ∃ s, D.replay events = .ok s ∧ ∀ d, n = .running d → d.state = s := by
  cases n with
  | running d =>
    refine ⟨Tracks.written tracked, d.state, Tracks.replayed tracked, ?_⟩
    rintro _ ⟨⟩
    rfl
  | stopped log =>
    obtain ⟨written, s, replayed⟩ := tracked
    exact ⟨written, s, replayed, fun d running => by cases running⟩

variable {step}

theorem Effect.tracks (effect : D.Effect d answer d') (tracks : D.Tracks d events) :
    D.Tracks d' events ∨ ∃ event, D.Tracks d' (events ++ [event]) := by
  rcases effect with ⟨-, rfl⟩ | ⟨event, appends⟩
  · exact .inl tracks
  · exact .inr ⟨event, tracks.appends appends⟩

theorem Tracks.stopped (tracks : D.Tracks d events) : D.Tracked (.stopped d.log) events :=
  ⟨tracks.written, _, tracks.replayed⟩

/-- **Each step of the system** extends the events by at most one. -/
theorem step_tracked (codec : D.Exact) (recording : D.Recording step) {n' : Node σ}
    (taken : D.Step step n n') (tracked : D.Tracked n events) :
    ∃ events', D.Tracked n' events' := by
  cases taken with
  | call c d =>
    obtain tracks | ⟨event, tracks⟩ := (recording c d).tracks tracked <;> exact ⟨_, tracks⟩
  | stop d => exact ⟨events, Tracks.stopped tracked⟩
  | cut c d =>
    obtain tracks | ⟨event, tracks⟩ := (recording c d).tracks tracked <;> exact ⟨_, tracks.stopped⟩
  | «open» opened => exact ⟨events, tracks_of_openLog codec tracked.1 opened⟩

/-- **Every node reached from an empty log tracks events**, whatever is refused, fails or stops. -/
theorem reachable_tracked (codec : D.Exact) (recording : D.Recording step)
    (reached : Relation.ReflTransGen (D.Step step) (.stopped []) n) :
    ∃ events, D.Tracked n events := by
  induction reached with
  | refl => exact ⟨[], .nil, D.start, rfl⟩
  | tail _ taken ih =>
    obtain ⟨events, tracked⟩ := ih
    exact step_tracked codec recording taken tracked

/-- **The journal of a run is its history**: its frames are events, which replay to the state in
memory. -/
theorem reachable_replays (codec : D.Exact) (recording : D.Recording step)
    (reached : Relation.ReflTransGen (D.Step step) (.stopped []) n) :
    ∃ events s, n.log.filterMap (fun frame => (D.decode frame).toOption.map Prod.snd) = events ∧
      events.length = n.log.length ∧ D.replay events = .ok s ∧
      ∀ d, n = .running d → s = d.state := by
  obtain ⟨events, tracked⟩ := reachable_tracked codec recording reached
  obtain ⟨written, s, replayed, running⟩ := tracked.replayed
  exact ⟨events, s, written.filterMap_decode codec, written.length_eq.symm, replayed,
    fun d is_running => (running d is_running).symm⟩

/-! ## Opening a history again -/

variable (D) in
/-- A driver whose log carries the revisions `0`, `1`, … and is counted by its own revision. -/
structure Faithful (d : Journalled σ) : Prop where
  events : ∃ events, D.Numbered 0 d.log events ∧ D.replay events = .ok d.state
  counts : d.revision.toNat = d.log.length

theorem Numbered.snoc {log : List Bytes} (numbered : D.Numbered index log events)
    (encoded : D.encode (UInt64.ofNat (index + log.length)) event = .ok bytes) :
    D.Numbered index (log ++ [bytes]) (events ++ [event]) := by
  induction index, log, events using Numbered.induct with
  | case1 index => exact ⟨encoded, trivial⟩
  | case2 index first log _ events ih =>
    refine ⟨numbered.1, ih numbered.2 ?_⟩
    rwa [Nat.add_assoc, Nat.add_comm 1]
  | case3 => simp_all [Numbered]

theorem Numbered.length_eq {log : List Bytes}
    (numbered : D.Numbered index log events) : log.length = events.length := by
  induction index, log, events using Numbered.induct with
  | case1 => rfl
  | case2 _ _ _ _ _ ih => rw [List.length_cons, List.length_cons, ih numbered.2]
  | case3 => simp_all [Numbered]

/-- A numbered log replays whenever its events do. -/
theorem replayFrom_of_numbered (codec : D.Exact) {log : List Bytes}
    (numbered : D.Numbered index log events)
    (replayed : events.foldlM D.apply s = .ok s') : D.replayFrom index s log = .ok s' := by
  induction index, log, events using Numbered.induct generalizing s with
  | case1 =>
    cases replayed
    rfl
  | case2 index bytes log event events ih =>
    simp only [List.foldlM_cons, bind_eq_ok] at replayed
    obtain ⟨next, accepted, rest⟩ := replayed
    simp only [replayFrom, codec.decode_encode numbered.1, bind_eq_ok, rejectIf_eq_ok,
      mapError_eq_ok]
    exact ⟨_, rfl, (), not_not.mpr rfl, next, accepted, ih numbered.2 rest⟩
  | case3 => simp_all [Numbered]

theorem length_le_of_openLog {log : List Bytes} (opened : D.openLog log = .ok d) :
    log.length ≤ D.cap := by
  simp only [openLog, bind_eq_ok, rejectIf_eq_ok] at opened
  obtain ⟨_, short, -⟩ := opened
  omega

/-- **A faithful driver can be opened again exactly when its history is within the cap.** -/
theorem openLog_eq_iff (codec : D.Exact) (faithful : D.Faithful d) :
    D.openLog d.log = .ok d ↔ d.log.length ≤ D.cap := by
  refine ⟨length_le_of_openLog, fun short => ?_⟩
  obtain ⟨events, numbered, replayed⟩ := faithful.events
  have revision : UInt64.ofNat d.log.length = d.revision := by
    rw [← faithful.counts, UInt64.ofNat_toNat]
  simp only [openLog, bind_eq_ok, rejectIf_eq_ok, pure_eq_ok]
  exact ⟨(), by omega, _, replayFrom_of_numbered codec numbered replayed, by rw [revision]⟩

theorem Appends.faithful (appends : D.Appends d event answer d') (faithful : D.Faithful d)
    (below : d.log.length < 2 ^ 64 - 1) : D.Faithful d' := by
  obtain ⟨events, numbered, replayed⟩ := faithful.events
  obtain ⟨bytes, encoded, log⟩ := appends.frame
  have counted := (appends.counted (faithful.counts ▸ below)).2
  constructor
  · refine ⟨events ++ [event], ?_, replay_snoc replayed appends.accepted⟩
    rw [log]
    refine numbered.snoc ?_
    rwa [Nat.zero_add, ← faithful.counts, UInt64.ofNat_toNat]
  · rw [counted, log, List.length_append, List.length_singleton, faithful.counts]

theorem Appends.length
    (appends : D.Appends d event answer d') : d'.log.length = d.log.length + 1 := by
  obtain ⟨bytes, -, log⟩ := appends.frame
  simp [log]

variable (step) in
/-- The driver after a sequence of calls. -/
def runCalls (calls : List C) (d : Journalled σ) : Journalled σ :=
  calls.foldl (fun d c => (step c d).2) d

theorem runCalls_snoc (calls : List C) (c : C) (d : Journalled σ) :
    runCalls step (calls ++ [c]) d = (step c (runCalls step calls d)).2 := by
  simp [runCalls]

variable (D) in
/-- The driver over an empty log. -/
def fresh : Journalled σ := ⟨[], D.start, 0⟩

variable (D) in
theorem openLog_nil : D.openLog [] = .ok D.fresh := by
  simp only [openLog, bind_eq_ok, rejectIf_eq_ok, pure_eq_ok]
  exact ⟨(), by simp, D.start, rfl, rfl⟩

/-- A sequence of calls over an empty log is a run of the system. -/
theorem reachable_runCalls (calls : List C) :
    Relation.ReflTransGen (D.Step step) (.stopped []) (.running (runCalls step calls D.fresh)) := by
  induction calls using List.reverseRecOn with
  | nil => exact .single (.open D.openLog_nil)
  | append_singleton calls c ih =>
    rw [runCalls_snoc]
    exact ih.tail (.call c _)

variable (D) in
theorem fresh_faithful : D.Faithful D.fresh := ⟨⟨[], trivial, rfl⟩, rfl⟩

/-- A call keeps a driver faithful as long as its counter is far from exhausted. -/
theorem Effect.faithful (effect : D.Effect d answer d')
    (faithful : D.Faithful d) (below : d.log.length < 2 ^ 64 - 1) : D.Faithful d' := by
  rcases effect with ⟨-, rfl⟩ | ⟨event, appends⟩
  · exact faithful
  · exact appends.faithful faithful below

/-- **When every state of a run can be opened again**: exactly when every successful call of the run
was made at a revision below the cap. -/
theorem reopens_iff (codec : D.Exact) (recording : D.Recording step) (cap : D.cap < 2 ^ 64 - 1)
    (calls : List C) :
    (∀ before, before <+: calls →
      D.openLog (runCalls step before D.fresh).log = .ok (runCalls step before D.fresh)) ↔
    ∀ before c, before ++ [c] <+: calls → (step c (runCalls step before D.fresh)).1 = .ok () →
      (runCalls step before D.fresh).revision.toNat < D.cap := by
  constructor
  · intro reopens
    -- every state of the run is faithful, because the states before it are within the cap
    have faithful : ∀ before, before <+: calls → D.Faithful (runCalls step before D.fresh) := by
      intro before
      induction before using List.reverseRecOn with
      | nil => exact fun _ => D.fresh_faithful
      | append_singleton before c ih =>
        intro initial
        have earlier : before <+: calls := (List.prefix_append before [c]).trans initial
        have short := length_le_of_openLog (reopens before earlier)
        rw [runCalls_snoc]
        exact (recording c _).faithful (ih earlier) (by omega)
    intro before c initial accepted
    have earlier : before <+: calls := (List.prefix_append before [c]).trans initial
    have short := length_le_of_openLog (reopens _ initial)
    rw [runCalls_snoc] at short
    rcases recording c (runCalls step before D.fresh) with ⟨⟨e, failed⟩, -⟩ | ⟨event, appends⟩
    · rw [accepted] at failed
      cases failed
    · rw [appends.length] at short
      rw [(faithful before earlier).counts]
      omega
  · intro below
    have good : ∀ before, before <+: calls → D.Faithful (runCalls step before D.fresh) ∧
        (runCalls step before D.fresh).log.length ≤ D.cap := by
      intro before
      induction before using List.reverseRecOn with
      | nil => exact fun _ => ⟨D.fresh_faithful, Nat.zero_le _⟩
      | append_singleton before c ih =>
        intro initial
        obtain ⟨faithful, short⟩ := ih ((List.prefix_append before [c]).trans initial)
        rw [runCalls_snoc]
        refine ⟨(recording c _).faithful faithful (by omega), ?_⟩
        rcases recording c (runCalls step before D.fresh) with ⟨-, unchanged⟩ | ⟨event, appends⟩
        · rwa [unchanged]
        · have counted := appends.counted (by rw [faithful.counts]; omega)
          have := below before c initial counted.1
          rw [faithful.counts] at this
          rw [appends.length]
          omega
    intro before initial
    obtain ⟨faithful, short⟩ := good before initial
    exact (openLog_eq_iff codec faithful).mpr short

end Driver
end DomProtocol
