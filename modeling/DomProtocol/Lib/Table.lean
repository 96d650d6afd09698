import DomProtocol.Lib.Checked

/-! # Tables

A key-value table is an ordered map with extensional equality. The loops a storage layer runs over a
table each get one lemma that says when the loop succeeds and one that says what a lookup returns
afterwards:

* **`putAllNew`** inserts entries whose keys must be absent;
* **`deleteAll`** removes keys that must be present;
* **`applyUpdates`** writes or removes the listed keys;
* **`Table.view`** reads a table through an overlay of pending updates. -/

namespace DomProtocol

/-- A comparison that tells different keys apart. -/
theorem lawfulEqOrd_of_compare {κ : Type} [Ord κ] (h : ∀ a b : κ, compare a b = .eq ↔ a = b) :
    Std.LawfulEqOrd κ where
  compare_self := (h _ _).mpr rfl
  eq_of_compare := (h _ _).mp

/-- A table from keys to values. -/
abbrev Table (κ υ : Type) [Ord κ] := Std.ExtTreeMap κ υ compare

namespace Table

variable {κ υ ε : Type} [Ord κ] [Std.TransOrd κ] [Std.LawfulEqOrd κ] [DecidableEq κ]

variable {t : Table κ υ} {k : κ} {entries : List (κ × υ)} {v : υ} {t' : Table κ υ} {keys : List κ}
  {overlay overlay' : Table κ (Option υ)}

/-! ## Single entries -/

omit [Std.LawfulEqOrd κ] [DecidableEq κ] in
theorem getElem?_empty (k : κ) : (∅ : Table κ υ)[k]? = none := by simp

theorem getElem?_insert (t : Table κ υ) (k a : κ) (v : υ) :
    (t.insert k v)[a]? = if k = a then some v else t[a]? := by
  rw [Std.ExtTreeMap.getElem?_insert]
  simp only [Std.LawfulEqOrd.compare_eq_iff_eq]

theorem getElem?_erase (t : Table κ υ) (k a : κ) :
    (t.erase k)[a]? = if k = a then none else t[a]? := by
  rw [Std.ExtTreeMap.getElem?_erase]
  simp only [Std.LawfulEqOrd.compare_eq_iff_eq]

omit [Std.LawfulEqOrd κ] [DecidableEq κ] in
theorem contains_eq_isSome (t : Table κ υ) (k : κ) : t.contains k = (t[k]?).isSome := by
  rw [Bool.eq_iff_iff, Std.ExtTreeMap.contains_iff_mem, Std.ExtTreeMap.mem_iff_isSome_getElem?]

/-- Look-ups in a table with one more entry. -/
theorem getElem?_insert_map {β : Type} (t : Table κ υ) (k : κ) (v : υ) (f : υ → β) :
    (fun a => (t.insert k v)[a]?.map f) = Function.update (fun a => t[a]?.map f) k (some (f v)) := by
  funext a
  by_cases ha : a = k
  · subst ha
    simp
  · rw [Function.update_of_ne ha, getElem?_insert, if_neg (Ne.symm ha)]

omit [Std.LawfulEqOrd κ] [DecidableEq κ] in
/-- The size of a table with one more key. -/
theorem size_insert_new (v : υ) (absent : t[k]? = none) : (t.insert k v).size = t.size + 1 := by
  rw [Std.ExtTreeMap.size_insert, contains_eq_isSome, absent]
  rfl

omit [Std.LawfulEqOrd κ] [DecidableEq κ] in
/-- The size of a table after a key is overwritten. -/
theorem size_insert_old {w : υ} (v : υ) (present : t[k]? = some w) :
    (t.insert k v).size = t.size := by
  rw [Std.ExtTreeMap.size_insert, contains_eq_isSome, present]
  rfl

omit [DecidableEq κ] in
/-- Each key is listed once. -/
theorem nodup_keys_toList (t : Table κ υ) : (t.toList.map Prod.fst).Nodup := by
  rw [List.Nodup, List.pairwise_map]
  refine t.distinct_keys_toList.imp fun hne heq => hne ?_
  rw [heq]
  exact Std.LawfulEqOrd.compare_eq_iff_eq.mpr rfl

omit [DecidableEq κ] in
/-- The entry of a table that lists one. -/
theorem eq_of_toList {w : υ} {a : κ} (single : t.toList = [(k, v)]) (found : t[a]? = some w) :
    a = k ∧ w = v := by
  have mem := Std.ExtTreeMap.mem_toList_iff_getElem?_eq_some.mpr found
  rwa [single, List.mem_singleton, Prod.mk.injEq] at mem

/-! ## Association lists -/

section AssociationLists

omit [Ord κ] [Std.TransOrd κ] [Std.LawfulEqOrd κ]

theorem lookup_eq_none : entries.lookup k = none ↔ k ∉ entries.map Prod.fst := by
  induction entries with
  | nil => simp
  | cons entry entries ih =>
    obtain ⟨key, value⟩ := entry
    by_cases hk : k = key
    · simp [hk]
    · have hbeq : (k == key) = false := by simpa using hk
      rw [List.lookup_cons, hbeq]
      simp [ih, hk]

theorem lookup_eq_some (nodup : (entries.map Prod.fst).Nodup) : entries.lookup k = some v ↔
    (k, v) ∈ entries := by
  induction entries with
  | nil => simp
  | cons entry entries ih =>
    obtain ⟨key, value⟩ := entry
    rw [List.map_cons, List.nodup_cons] at nodup
    by_cases hk : k = key
    · subst hk
      have habsent : (k, v) ∉ entries := fun hmem =>
        nodup.1 (List.mem_map.mpr ⟨_, hmem, rfl⟩)
      simp [habsent, eq_comm]
    · have hbeq : (k == key) = false := by simpa using hk
      rw [List.lookup_cons, hbeq]
      simp [ih nodup.2, hk]

theorem lookup_cons_eq (key k : κ) (value : υ) (entries : List (κ × υ)) :
    List.lookup k ((key, value) :: entries) =
      if key = k then some value else entries.lookup k := by
  rw [List.lookup_cons]
  by_cases hk : key = k
  · simp [hk]
  · have hbeq : (k == key) = false := by simpa using Ne.symm hk
    rw [hbeq, if_neg hk]

theorem lookup_map_key (f : κ → υ) (keys : List κ) (k : κ) :
    (keys.map fun key => (key, f key)).lookup k = if k ∈ keys then some (f k) else none := by
  induction keys with
  | nil => rfl
  | cons key keys ih =>
    rw [List.map_cons, lookup_cons_eq, ih]
    by_cases hk : key = k
    · simp [hk]
    · simp [hk, Ne.symm hk]

theorem lookup_map_snd {υ' : Type} (f : υ → υ') (entries : List (κ × υ)) (k : κ) :
    (entries.map fun entry => (entry.1, f entry.2)).lookup k = (entries.lookup k).map f := by
  induction entries with
  | nil => rfl
  | cons entry entries ih =>
    obtain ⟨key, value⟩ := entry
    rw [List.map_cons, lookup_cons_eq, lookup_cons_eq, ih]
    split <;> rfl

theorem lookup_filter (p : κ × υ → Bool) (nodup : (entries.map Prod.fst).Nodup) (k : κ) :
    (entries.filter p).lookup k = (entries.lookup k).filter fun v => p (k, v) := by
  have hnodup : ((entries.filter p).map Prod.fst).Nodup :=
    nodup.sublist (List.filter_sublist.map _)
  ext v
  rw [lookup_eq_some hnodup, List.mem_filter, Option.filter_eq_some_iff, lookup_eq_some nodup]

end AssociationLists

theorem lookup_toList (t : Table κ υ) (k : κ) : t.toList.lookup k = t[k]? := by
  ext v
  rw [lookup_eq_some (nodup_keys_toList t), Std.ExtTreeMap.mem_toList_iff_getElem?_eq_some]

/-! ## Inserting entries -/

omit [Ord κ] [Std.TransOrd κ] [Std.LawfulEqOrd κ] [DecidableEq κ] in
/-- **A loop that uses up keys**: an item succeeds while its key is free, and only takes its own key.
So the loop succeeds exactly on free, distinct keys. -/
theorem foldlM_take_eq_ok {σ α : Type} {step : σ → α → Except ε σ} {s s' : σ} (key : α → κ)
    (next : σ → α → σ) (Free : σ → κ → Prop)
    (spec : ∀ s item s', step s item = .ok s' ↔ Free s (key item) ∧ s' = next s item)
    (takes : ∀ s item k, Free (next s item) k ↔ key item ≠ k ∧ Free s k) {items : List α} :
    items.foldlM step s = .ok s' ↔ ((items.map key).Nodup ∧ ∀ k ∈ items.map key, Free s k) ∧
      s' = items.foldl next s := by
  induction items generalizing s with
  | nil =>
    rw [List.foldlM_nil, pure_eq_ok, eq_comm]
    simp
  | cons item items ih =>
    simp only [List.foldlM_cons, bind_eq_ok, spec, ih, List.map_cons, List.nodup_cons,
      List.forall_mem_cons, List.foldl_cons]
    constructor
    · rintro ⟨_, ⟨free, rfl⟩, ⟨nodup, others⟩, rfl⟩
      simp only [takes] at others
      exact ⟨⟨⟨fun mem => (others _ mem).1 rfl, nodup⟩, free, fun k mem => (others k mem).2⟩, rfl⟩
    · rintro ⟨⟨⟨new, nodup⟩, free, others⟩, rfl⟩
      refine ⟨_, ⟨free, rfl⟩, ⟨nodup, fun k mem => (takes ..).mpr ⟨?_, others k mem⟩⟩, rfl⟩
      exact fun same => new (same ▸ mem)


/-- Insert entries in order; a later entry replaces an earlier one. -/
def insertAll (entries : List (κ × υ)) (t : Table κ υ) : Table κ υ :=
  entries.foldl (fun t entry => t.insert entry.1 entry.2) t

/-- **Lookup after inserting entries with distinct keys.** -/
theorem getElem?_insertAll (nodup : (entries.map Prod.fst).Nodup)
    (t : Table κ υ) (k : κ) : (insertAll entries t)[k]? = (entries.lookup k).or t[k]? := by
  induction entries generalizing t with
  | nil => simp [insertAll]
  | cons entry entries ih =>
    obtain ⟨key, value⟩ := entry
    rw [List.map_cons, List.nodup_cons] at nodup
    show (insertAll entries (t.insert key value))[k]? = _
    rw [ih nodup.2, getElem?_insert, lookup_cons_eq]
    by_cases hk : key = k
    · subst hk
      rw [lookup_eq_none.mpr nodup.1]
      simp
    · rw [if_neg hk, if_neg hk]

/-- Insert an entry whose key must be absent. -/
def putNew (taken : κ × υ → ε) (t : Table κ υ) (entry : κ × υ) : Except ε (Table κ υ) := do
  rejectIf (t.contains entry.1 = true) (taken entry)
  pure (t.insert entry.1 entry.2)

/-- Insert entries whose keys must be absent, stopping at the first that is not. -/
def putAllNew (taken : κ × υ → ε) (entries : List (κ × υ)) (t : Table κ υ) : Except ε (Table κ υ) :=
  entries.foldlM (putNew taken) t

/-- **Insertion of new entries succeeds exactly on fresh, distinct keys.** -/
theorem putAllNew_eq_ok {taken : κ × υ → ε} :
    putAllNew taken entries t = .ok t' ↔
      ((entries.map Prod.fst).Nodup ∧ ∀ k ∈ entries.map Prod.fst, t[k]? = none) ∧
        t' = insertAll entries t := by
  refine foldlM_take_eq_ok Prod.fst (fun (t : Table κ υ) entry => t.insert entry.1 entry.2)
    (fun t k => t[k]? = none) (fun t entry t' => ?_) fun t entry k => ?_
  · rw [eq_comm (a := t')]
    simp only [putNew, bind_eq_ok, rejectIf_eq_ok, pure_eq_ok, contains_eq_isSome,
      Option.isSome_iff_ne_none, ne_eq, not_not, exists_const]
  · rw [getElem?_insert]
    split <;> simp [*]

/-! ## Removing keys -/

/-- Remove keys in order. -/
def eraseAll (keys : List κ) (t : Table κ υ) : Table κ υ := keys.foldl (fun t k => t.erase k) t

/-- **Lookup after removing keys.** -/
theorem getElem?_eraseAll (keys : List κ) (t : Table κ υ) (k : κ) :
    (eraseAll keys t)[k]? = if k ∈ keys then none else t[k]? := by
  induction keys generalizing t with
  | nil => simp [eraseAll]
  | cons key keys ih =>
    show (eraseAll keys (t.erase key))[k]? = _
    rw [ih, getElem?_erase]
    by_cases hk : k = key
    · subst hk
      simp
    · simp [hk, Ne.symm hk]

/-- Remove a key that must be present. -/
def deletePresent (missing : κ → ε) (t : Table κ υ) (k : κ) : Except ε (Table κ υ) := do
  rejectIf (t.contains k = false) (missing k)
  pure (t.erase k)

/-- Remove keys that must be present, stopping at the first that is not. -/
def deleteAll (missing : κ → ε) (keys : List κ) (t : Table κ υ) : Except ε (Table κ υ) :=
  keys.foldlM (deletePresent missing) t

/-- **Removal succeeds exactly on present, distinct keys.** -/
theorem deleteAll_eq_ok {missing : κ → ε} :
    deleteAll missing keys t = .ok t' ↔
      (keys.Nodup ∧ ∀ k ∈ keys, t[k]? ≠ none) ∧ t' = eraseAll keys t := by
  have loop := @foldlM_take_eq_ok _ _ _ _ (deletePresent missing) t t' id
    (fun (t : Table κ υ) k => t.erase k) (fun t k => t[k]? ≠ none) (fun t k t' => ?_)
    (fun t key k => ?_) keys
  · rwa [List.map_id] at loop
  · rw [eq_comm (a := t')]
    simp only [deletePresent, bind_eq_ok, rejectIf_eq_ok, pure_eq_ok, contains_eq_isSome,
      Bool.not_eq_false, Option.isSome_iff_ne_none, exists_const, id]
  · rw [getElem?_erase]
    split <;> simp [*]

/-! ## Updates and overlays -/

/-- Write or remove one key. -/
def update (t : Table κ υ) (entry : κ × Option υ) : Table κ υ :=
  match entry.2 with
  | some v => t.insert entry.1 v
  | none => t.erase entry.1

theorem getElem?_update (t : Table κ υ) (entry : κ × Option υ) (k : κ) :
    (t.update entry)[k]? = if entry.1 = k then entry.2 else t[k]? := by
  obtain ⟨key, value⟩ := entry
  cases value with
  | none => exact getElem?_erase t key k
  | some v => exact getElem?_insert t key k v

/-- Write or remove the listed keys in order. -/
def applyUpdates (updates : List (κ × Option υ)) (t : Table κ υ) : Table κ υ :=
  updates.foldl update t

/-- **Lookup after updates of distinct keys.** -/
theorem getElem?_applyUpdates {updates : List (κ × Option υ)}
    (nodup : (updates.map Prod.fst).Nodup) (t : Table κ υ) (k : κ) :
    (applyUpdates updates t)[k]? = (updates.lookup k).getD t[k]? := by
  induction updates generalizing t with
  | nil => simp [applyUpdates]
  | cons entry updates ih =>
    obtain ⟨key, value⟩ := entry
    rw [List.map_cons, List.nodup_cons] at nodup
    show (applyUpdates updates (t.update (key, value)))[k]? = _
    rw [ih nodup.2, getElem?_update, lookup_cons_eq]
    by_cases hk : key = k
    · subst hk
      rw [lookup_eq_none.mpr nodup.1]
      simp
    · rw [if_neg hk, if_neg hk]

theorem getElem?_applyUpdates_toList (updates : Table κ (Option υ)) (t : Table κ υ) (k : κ) :
    (applyUpdates updates.toList t)[k]? = updates[k]?.getD t[k]? := by
  rw [getElem?_applyUpdates (nodup_keys_toList updates), lookup_toList]

/-- Read through an overlay of pending updates. -/
def view (overlay : Table κ (Option υ)) (base : κ → Option υ) (k : κ) : Option υ :=
  overlay[k]?.getD (base k)

theorem view_insert (overlay : Table κ (Option υ)) (base : κ → Option υ) (key k : κ)
    (value : Option υ) :
    view (overlay.insert key value) base k = if key = k then value else view overlay base k := by
  unfold view
  rw [getElem?_insert]
  split <;> rfl

theorem view_insertAll {entries : List (κ × Option υ)} (nodup : (entries.map Prod.fst).Nodup)
    (overlay : Table κ (Option υ)) (base : κ → Option υ) (k : κ) :
    view (insertAll entries overlay) base k = (entries.lookup k).getD (view overlay base k) := by
  unfold view
  rw [getElem?_insertAll nodup]
  cases entries.lookup k <;> rfl

theorem view_insertAll_keys (nodup : keys.Nodup) (f : κ → Option υ)
    (overlay : Table κ (Option υ)) (base : κ → Option υ) (k : κ) :
    view (insertAll (keys.map fun key => (key, f key)) overlay) base k =
      if k ∈ keys then f k else view overlay base k := by
  rw [view_insertAll (by simpa [List.map_map, Function.comp_def] using nodup), lookup_map_key]
  split <;> rfl

/-- **A loop that writes one pending entry per item**, under a condition on what is read at its key:
with distinct keys, all conditions are on the overlay before the loop. -/
theorem foldlM_insert_eq_ok {α : Type}
    {step : Table κ (Option υ) → α → Except ε (Table κ (Option υ))} (entry : α → κ × Option υ)
    (base : κ → Option υ) (Allowed : α → Option υ → Prop)
    (spec : ∀ overlay item overlay', step overlay item = .ok overlay' ↔
      Allowed item (view overlay base (entry item).1) ∧
        overlay' = overlay.insert (entry item).1 (entry item).2)
    {items : List α} (nodup : (items.map fun item => (entry item).1).Nodup) :
    items.foldlM step overlay = .ok overlay' ↔
      (∀ item ∈ items, Allowed item (view overlay base (entry item).1)) ∧
        overlay' = insertAll (items.map entry) overlay := by
  induction items generalizing overlay with
  | nil =>
    rw [List.foldlM_nil, pure_eq_ok, eq_comm]
    simp [insertAll]
  | cons item items ih =>
    rw [List.map_cons, List.nodup_cons] at nodup
    have hview : ∀ i ∈ items, view (overlay.insert (entry item).1 (entry item).2) base
        (entry i).1 = view overlay base (entry i).1 := by
      intro i hi
      have hne : (entry item).1 ≠ (entry i).1 := fun heq =>
        nodup.1 (List.mem_map.mpr ⟨i, hi, heq.symm⟩)
      rw [view_insert, if_neg hne]
    simp only [List.foldlM_cons, bind_eq_ok, spec, List.forall_mem_cons]
    constructor
    · rintro ⟨_, ⟨hallowed, rfl⟩, hrest⟩
      obtain ⟨hall, heq⟩ := (ih nodup.2).mp hrest
      exact ⟨⟨hallowed, fun i hi => hview i hi ▸ hall i hi⟩, heq⟩
    · rintro ⟨⟨hallowed, hall⟩, heq⟩
      exact ⟨_, ⟨hallowed, rfl⟩, (ih nodup.2).mpr ⟨fun i hi => (hview i hi).symm ▸ hall i hi, heq⟩⟩

/-- A loop that writes pending entries where nothing is read; it rejects repeated keys itself. -/
theorem foldlM_insertNew_eq_ok {step : Table κ (Option υ) → κ → Except ε (Table κ (Option υ))}
    (base : κ → Option υ) (value : υ)
    (spec : ∀ overlay key overlay', step overlay key = .ok overlay' ↔
      view overlay base key = none ∧ overlay' = overlay.insert key (some value)) :
    keys.foldlM step overlay = .ok overlay' ↔
      (keys.Nodup ∧ ∀ key ∈ keys, view overlay base key = none) ∧
        overlay' = insertAll (keys.map (·, some value)) overlay := by
  have loop := @foldlM_take_eq_ok _ _ _ _ step overlay overlay' id
    (fun overlay key => overlay.insert key (some value)) (fun overlay k => view overlay base k = none)
    spec (fun overlay key k => ?_) keys
  · rw [List.map_id] at loop
    rw [loop, insertAll, List.foldl_map]
  · rw [view_insert]
    split <;> simp [*]

/-! ## Claiming and releasing keys

An owner claims keys by writing its name under them and releases those it still holds. -/

/-- Write an owner under every key. -/
def claimAll (owner : υ) (keys : List κ) (t : Table κ υ) : Table κ υ :=
  keys.foldl (fun t key => t.insert key owner) t

theorem getElem?_claimAll (owner : υ) (keys : List κ) (t : Table κ υ) (k : κ) :
    (claimAll owner keys t)[k]? = if k ∈ keys then some owner else t[k]? := by
  induction keys generalizing t with
  | nil => rfl
  | cons key keys ih =>
    show (claimAll owner keys (t.insert key owner))[k]? = _
    rw [ih, getElem?_insert]
    by_cases hk : key = k
    · simp [hk]
    · simp [hk, Ne.symm hk]

/-- Remove the keys an owner still holds. -/
def releaseAll [DecidableEq υ] (owner : υ) (keys : List κ) (t : Table κ υ) : Table κ υ :=
  keys.foldl (fun t key => if t[key]? = some owner then t.erase key else t) t

theorem getElem?_releaseAll [DecidableEq υ] (owner : υ) (keys : List κ) (t : Table κ υ) (k : κ) :
    (releaseAll owner keys t)[k]? = if k ∈ keys ∧ t[k]? = some owner then none else t[k]? := by
  induction keys generalizing t with
  | nil => simp [releaseAll]
  | cons key keys ih =>
    have hstep : (if t[key]? = some owner then t.erase key else t)[k]? =
        if key = k ∧ t[k]? = some owner then none else t[k]? := by
      by_cases hk : key = k
      · subst hk
        by_cases hheld : t[key]? = some owner
        · simp [hheld]
        · simp [hheld]
      · split
        · rw [getElem?_erase, if_neg hk]
          simp [hk]
        · simp [hk]
    show (releaseAll owner keys (if t[key]? = some owner then t.erase key else t))[k]? = _
    rw [ih, hstep]
    by_cases hk : key = k
    · by_cases hheld : t[k]? = some owner <;> simp [hk, hheld]
    · simp [hk, Ne.symm hk]

/-! ## Lists of entries -/

/-- Inserting a new key adds its entry to the list. -/
theorem toList_insert_perm (absent : t[k]? = none) (v : υ) :
    (t.insert k v).toList.Perm ((k, v) :: t.toList) := by
  have hfresh : (k, v) ∉ t.toList := fun hmem => by
    rw [Std.ExtTreeMap.mem_toList_iff_getElem?_eq_some, absent] at hmem
    cases hmem
  rw [List.perm_ext_iff_of_nodup (nodup_keys_toList _).of_map
    (List.nodup_cons.mpr ⟨hfresh, (nodup_keys_toList t).of_map⟩)]
  rintro ⟨key, value⟩
  rw [List.mem_cons, Std.ExtTreeMap.mem_toList_iff_getElem?_eq_some,
    Std.ExtTreeMap.mem_toList_iff_getElem?_eq_some, getElem?_insert, Prod.mk.injEq]
  by_cases hk : k = key
  · subst hk
    simp [absent, eq_comm]
  · simp [hk, Ne.symm hk]

/-- Removing a key that is present removes its entry from the list. -/
theorem toList_erase_perm (present : t[k]? = some v) :
    t.toList.Perm ((k, v) :: (t.erase k).toList) := by
  have habsent : (t.erase k)[k]? = none := by
    rw [getElem?_erase, if_pos rfl]
  have hinsert : (t.erase k).insert k v = t := by
    apply Std.ExtTreeMap.ext_getElem?
    intro key
    rw [getElem?_insert, getElem?_erase]
    split
    · rename_i hk
      rw [← hk, present]
    · rfl
  conv_lhs => rw [← hinsert]
  exact toList_insert_perm habsent v

/-! ## Sums -/

/-- The sum of a quantity over the entries. -/
def sumOf (f : κ × υ → Nat) (t : Table κ υ) : Nat := (t.toList.map f).sum

omit [DecidableEq κ] in
/-- The sum over an empty table. -/
theorem sumOf_empty (f : κ × υ → Nat) : sumOf f (∅ : Table κ υ) = 0 := by
  have nothing : (∅ : Table κ υ).toList = [] := by
    rw [List.eq_nil_iff_forall_not_mem]
    rintro ⟨key, value⟩ found
    rw [Std.ExtTreeMap.mem_toList_iff_getElem?_eq_some, getElem?_empty] at found
    cases found
  rw [sumOf, nothing]
  rfl

/-- **What an insertion adds to a sum**: the new entry, less the entry it overwrites. -/
theorem sumOf_insert (f : κ × υ → Nat) (t : Table κ υ) (k : κ) (v : υ) :
    sumOf f (t.insert k v) + (t[k]?.elim 0 fun old => f (k, old)) = sumOf f t + f (k, v) := by
  cases found : t[k]? with
  | none =>
    have added := ((toList_insert_perm found v).map f).sum_eq
    simp only [List.map_cons, List.sum_cons] at added
    simp only [sumOf, added, Option.elim_none]
    omega
  | some old =>
    have erased : (t.erase k)[k]? = none := by rw [getElem?_erase, if_pos rfl]
    have same : (t.erase k).insert k v = t.insert k v := by
      apply Std.ExtTreeMap.ext_getElem?
      intro key
      rw [getElem?_insert, getElem?_insert, getElem?_erase]
      split <;> rfl
    have added := ((toList_insert_perm erased v).map f).sum_eq
    have removed := ((toList_erase_perm found).map f).sum_eq
    rw [same] at added
    simp only [List.map_cons, List.sum_cons] at added removed
    simp only [sumOf, added, removed, Option.elim_some]
    omega

end Table

end DomProtocol
