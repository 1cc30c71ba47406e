import Std.Data.ExtTreeMap

/-!
# The block clock's history

`BlockClockHistory` of `blockclockhistory.cpp`. A callback that the history calls under its lock only
queues work, so a call of it is the `Bool` next to the new state.
-/

namespace GuiQml.BlockClock

/-- A `uint256` as a number. -/
abbrev Hash := Nat

abbrev Blocks := Std.ExtTreeMap Hash Int

structure BlockClockHistory where
  /-- Whether `m_changed` is set. -/
  m_changed : Bool := false
  m_blocks : Blocks := ∅
  /-- The last event of each hash: a timestamp for a connect, nothing for a disconnect. -/
  m_pending : Std.ExtTreeMap Hash (Option Int) := ∅
  m_retention_start : Int := 0
  m_initialized : Bool := false
  m_dirty : Bool := false
  m_stopped : Bool := false

namespace BlockClockHistory

variable (s : BlockClockHistory)

def stop : BlockClockHistory := { s with m_stopped := true, m_pending := ∅, m_changed := false }

def setChangedCallback (callback : Bool) : BlockClockHistory × Bool :=
  if s.m_stopped then (s, false)
  else ({ s with m_changed := callback }, callback && s.m_initialized && s.m_dirty)

def retentionStart : Option Int := if s.m_stopped then none else some s.m_retention_start

def setRetentionStart (retention_start : Int) : BlockClockHistory :=
  if s.m_stopped || s.m_retention_start = retention_start then s
  else { s with
    m_retention_start := retention_start
    m_blocks := s.m_blocks.filter fun _ timestamp => retention_start ≤ timestamp
    m_pending := s.m_pending.filter fun _ timestamp => timestamp.all (retention_start ≤ ·)
    m_dirty := true }

def takeSnapshot : Option (List Int) × BlockClockHistory :=
  if s.m_stopped || !s.m_initialized || !s.m_dirty then (none, s)
  else (some (s.m_blocks.toList.map (·.2)), { s with m_dirty := false })

/-- Replay the pending events on a snapshot. -/
def reconcile (pending : Std.ExtTreeMap Hash (Option Int)) (blocks : Blocks) : Blocks :=
  pending.foldl (fun blocks hash event =>
    match event with
    | some timestamp => blocks.insert hash timestamp
    | none => blocks.erase hash) blocks

/-- `initialize` installs the snapshot, once. -/
def initializeWith (blocks : Blocks) : BlockClockHistory × Bool :=
  if s.m_stopped || s.m_initialized then (s, false)
  else
    ({ s with
        m_blocks := (reconcile s.m_pending blocks).filter fun _ timestamp =>
          s.m_retention_start ≤ timestamp
        m_pending := ∅
        m_initialized := true
        m_dirty := true }, s.m_changed)

def record (hash : Hash) (timestamp : Int) (connected : Bool) : BlockClockHistory × Bool :=
  if s.m_stopped || timestamp < s.m_retention_start then (s, false)
  else if !s.m_initialized then
    ({ s with m_pending :=
        s.m_pending.insert hash (if connected then some timestamp else none) }, false)
  else if connected then
    if hash ∈ s.m_blocks then (s, false)
    else ({ s with m_blocks := s.m_blocks.insert hash timestamp, m_dirty := true }, s.m_changed)
  else
    if hash ∈ s.m_blocks then
      ({ s with m_blocks := s.m_blocks.erase hash, m_dirty := true }, s.m_changed)
    else (s, false)

def blockConnected (historical : Bool) (hash : Hash) (timestamp : Int) :
    BlockClockHistory × Bool :=
  if historical then (s, false) else s.record hash timestamp true

def blockDisconnected (hash : Hash) (timestamp : Int) : BlockClockHistory × Bool :=
  s.record hash timestamp false

/-! ## Lookups -/

/-- A fold over the pending events leaves the event of each hash, or the snapshot. -/
theorem getElem?_reconcile (pending : Std.ExtTreeMap Hash (Option Int)) (blocks : Blocks)
    (hash : Hash) : (reconcile pending blocks)[hash]? = pending[hash]?.getD blocks[hash]? := by
  have hfold : ∀ (l : List (Hash × Option Int)) (blocks : Blocks),
      l.Pairwise (fun a b => ¬ compare a.1 b.1 = .eq) →
      (l.foldl (fun blocks p => match p.2 with
        | some timestamp => blocks.insert p.1 timestamp
        | none => blocks.erase p.1) blocks)[hash]? =
      ((l.find? (·.1 = hash)).map (·.2)).getD blocks[hash]? := by
    intro l
    induction l with
    | nil => intro blocks _; rfl
    | cons p l ih =>
      intro blocks hl
      obtain ⟨hp, hl⟩ := List.pairwise_cons.mp hl
      rw [List.foldl_cons, ih _ hl]
      by_cases h : p.1 = hash
      · have hnone : l.find? (·.1 = hash) = none := by
          refine List.find?_eq_none.mpr fun q hq => ?_
          have hne : ¬ p.1 = q.1 := fun heq => hp q hq (Nat.compare_eq_eq.mpr heq)
          simpa [← h] using fun heq : q.1 = p.1 => hne heq.symm
        cases hv : p.2 <;> simp [hnone, h, hv]
      · cases hv : p.2 <;> simp [h, Std.ExtTreeMap.getElem?_insert, Std.ExtTreeMap.getElem?_erase]
  unfold reconcile
  rw [Std.ExtTreeMap.foldl_eq_foldl_toList]
  have hdistinct := @Std.ExtTreeMap.distinct_keys_toList _ _ _ pending _
  rw [hfold pending.toList blocks hdistinct]
  congr 1
  have hmem : ∀ q ∈ pending.toList, q.1 = hash → pending[hash]? = some q.2 := by
    rintro q hq rfl
    exact Std.ExtTreeMap.mem_toList_iff_getElem?_eq_some.mp hq
  cases hf : pending.toList.find? (·.1 = hash) with
  | none =>
    cases hp : pending[hash]? with
    | none => rfl
    | some event =>
      have := List.find?_eq_none.mp hf _ (Std.ExtTreeMap.mem_toList_iff_getElem?_eq_some.mpr hp)
      simp at this
  | some q =>
    rw [hmem q (List.mem_of_find?_eq_some hf) (by simpa using List.find?_some hf)]
    rfl

theorem takeSnapshot_of_running {s : BlockClockHistory} (hs : s.m_stopped = false) :
    s.takeSnapshot = if (s.m_initialized && s.m_dirty) = true then
      (some (s.m_blocks.toList.map (·.2)), { s with m_dirty := false }) else (none, s) := by
  unfold takeSnapshot
  cases hi : s.m_initialized <;> cases hd : s.m_dirty <;> simp [hs]

/-! ## What a notification does -/

section Record

variable {s : BlockClockHistory} {hash : Hash} {timestamp : Int} {connected : Bool}

theorem record_old (h : timestamp < s.m_retention_start) :
    (s.record hash timestamp connected).1 = s := by
  simp [record, h]

theorem record_pending (hs : s.m_stopped = false) (hi : s.m_initialized = false)
    (ht : s.m_retention_start ≤ timestamp) :
    (s.record hash timestamp connected).1 =
      { s with
        m_pending := s.m_pending.insert hash (if connected then some timestamp else none) } := by
  have hold : ¬ timestamp < s.m_retention_start := by omega
  simp [record, hs, hi, hold]

theorem record_known (hi : s.m_initialized = true)
    (h : hash ∈ s.m_blocks ↔ connected = true) : (s.record hash timestamp connected).1 = s := by
  unfold record
  cases connected with
  | true =>
    have hmem : hash ∈ s.m_blocks := h.mpr rfl
    simp [hi, hmem]
  | false =>
    have hmem : ¬ hash ∈ s.m_blocks := by simpa using h
    simp [hi, hmem]

theorem record_new (hs : s.m_stopped = false) (hi : s.m_initialized = true)
    (ht : s.m_retention_start ≤ timestamp) (h : ¬ (hash ∈ s.m_blocks ↔ connected = true)) :
    (s.record hash timestamp connected).1 =
      { s with
        m_blocks := if connected then s.m_blocks.insert hash timestamp else s.m_blocks.erase hash
        m_dirty := true } := by
  have hold : ¬ timestamp < s.m_retention_start := by omega
  unfold record
  cases connected with
  | true =>
    have hmem : ¬ hash ∈ s.m_blocks := by simpa using h
    simp [hs, hi, hold, hmem]
  | false =>
    have hmem : hash ∈ s.m_blocks := by simpa using h
    simp [hs, hi, hold, hmem]

theorem record_frame : (s.record hash timestamp connected).1.m_stopped = s.m_stopped ∧
    (s.record hash timestamp connected).1.m_retention_start = s.m_retention_start ∧
    (s.record hash timestamp connected).1.m_initialized = s.m_initialized := by
  unfold record
  split
  · exact ⟨rfl, rfl, rfl⟩
  split
  · exact ⟨rfl, rfl, rfl⟩
  split <;> split <;> exact ⟨rfl, rfl, rfl⟩

theorem mem_record_iff (hs : s.m_stopped = false) (hi : s.m_initialized = true)
    (ht : s.m_retention_start ≤ timestamp) :
    hash ∈ (s.record hash timestamp connected).1.m_blocks ↔ connected = true := by
  by_cases h : hash ∈ s.m_blocks ↔ connected = true
  · rw [record_known hi h]
    exact h
  · rw [record_new hs hi ht h]
    cases connected <;> simp

theorem getElem?_record (hs : s.m_stopped = false) (hi : s.m_initialized = true) (x : Hash) :
    (s.record hash timestamp connected).1.m_blocks[x]? =
      if hash = x ∧ s.m_retention_start ≤ timestamp then
        if connected then some (s.m_blocks[x]?.getD timestamp) else none
      else s.m_blocks[x]? := by
  by_cases ht : s.m_retention_start ≤ timestamp
  · by_cases h : hash ∈ s.m_blocks ↔ connected = true
    · rw [record_known hi h]
      by_cases hx : hash = x
      · subst hx
        cases connected with
        | true =>
          have hmem : hash ∈ s.m_blocks := h.mpr rfl
          obtain ⟨t, hget⟩ := Option.isSome_iff_exists.mp
            (Std.ExtTreeMap.mem_iff_isSome_getElem?.mp hmem)
          simp [ht, hget]
        | false =>
          have hmem : ¬ hash ∈ s.m_blocks := by simpa using h
          simp [ht, Std.ExtTreeMap.getElem?_eq_none hmem]
      · simp [hx]
    · rw [record_new hs hi ht h]
      cases connected with
      | true =>
        have hmem : ¬ hash ∈ s.m_blocks := by simpa using h
        by_cases hx : hash = x
        · subst hx
          simp [ht, Std.ExtTreeMap.getElem?_eq_none hmem]
        · simp [hx, Std.ExtTreeMap.getElem?_insert]
      | false =>
        by_cases hx : hash = x <;> simp [hx, ht, Std.ExtTreeMap.getElem?_erase]
  · rw [record_old (by omega), if_neg fun h => ht h.2]

theorem dirty_record (hs : s.m_stopped = false) (hi : s.m_initialized = true) :
    (s.record hash timestamp connected).1.m_dirty = true ↔
      (s.record hash timestamp connected).1.m_blocks ≠ s.m_blocks ∨ s.m_dirty = true := by
  by_cases ht : s.m_retention_start ≤ timestamp
  · by_cases h : hash ∈ s.m_blocks ↔ connected = true
    · rw [record_known hi h]
      simp
    · have hne : (s.record hash timestamp connected).1.m_blocks ≠ s.m_blocks := by
        intro heq
        have hmem : hash ∈ (s.record hash timestamp connected).1.m_blocks ↔ connected = true :=
          mem_record_iff hs hi ht
        rw [heq] at hmem
        exact h hmem
      rw [record_new hs hi ht h] at hne ⊢
      simp [hne]
  · rw [record_old (by omega)]
    simp

end Record

end BlockClockHistory

end GuiQml.BlockClock
