import GuiQml.BlockClock.Model

/-!
# No block is missed

The clock has no lock of its own around what it shows. Whatever the history changes, a refresh that will see it is
running or queued, or the call that queues it is under way. At most one refresh is queued.
-/

namespace GuiQml.BlockClock

/-- What a snapshot of the history holds. -/
def BlockClockHistory.timestamps (h : BlockClockHistory) : List Int := h.m_blocks.toList.map (·.2)

def Phase.tick : Phase → Option QDateTime
  | .retaining tick | .retaken tick => tick
  | _ => none

/-! ## The history -/

/-- Whatever changes the blocks says so and calls back. -/
structure Notices (h : BlockClockHistory) (done : BlockClockHistory × Bool) : Prop where
  m_stopped : done.1.m_stopped = h.m_stopped
  m_changed : done.1.m_changed = h.m_changed
  said : done.1.m_initialized = true →
    (done.1.m_dirty = true ∧ done.2 = h.m_changed) ∨ (done.1 = h ∧ done.2 = false)

theorem notices_self (h : BlockClockHistory) : Notices h (h, false) := ⟨rfl, rfl, fun _ => .inr ⟨rfl, rfl⟩⟩

theorem notices_record (h : BlockClockHistory) (hash : Hash) (timestamp : Int) (connected : Bool) :
    Notices h (h.record hash timestamp connected) := by
  unfold BlockClockHistory.record
  split
  · exact notices_self h
  split
  · rename_i hinit
    exact ⟨rfl, rfl, fun hinit' => by simp_all⟩
  split <;> split
  · exact notices_self h
  · exact ⟨rfl, rfl, fun _ => .inl ⟨rfl, rfl⟩⟩
  · exact ⟨rfl, rfl, fun _ => .inl ⟨rfl, rfl⟩⟩
  · exact notices_self h

theorem notices_blockConnected (h : BlockClockHistory) (historical : Bool) (hash : Hash) (timestamp : Int) :
    Notices h (h.blockConnected historical hash timestamp) := by
  unfold BlockClockHistory.blockConnected
  split
  · exact notices_self h
  · exact notices_record h hash timestamp true

theorem notices_initializeWith (h : BlockClockHistory) (blocks : Blocks) : Notices h (h.initializeWith blocks) := by
  unfold BlockClockHistory.initializeWith
  split
  · exact notices_self h
  · exact ⟨rfl, rfl, fun _ => .inl ⟨rfl, rfl⟩⟩

theorem setRetentionStart_cases (h : BlockClockHistory) (retention_start : Int) :
    h.setRetentionStart retention_start = h ∨
      (h.setRetentionStart retention_start).m_dirty = true ∧
        (h.setRetentionStart retention_start).m_stopped = h.m_stopped ∧
        (h.setRetentionStart retention_start).m_changed = h.m_changed := by
  unfold BlockClockHistory.setRetentionStart
  split
  · exact .inl rfl
  · exact .inr ⟨rfl, rfl, rfl⟩

/-! ## The model -/

namespace BlockClockModel

variable {s : BlockClockModel}

/-- The cache is what the history holds, unless the history says that it has changed. -/
def Fresh (s : BlockClockModel) : Prop :=
  s.m_history.m_initialized = true → s.m_history.m_dirty = false → s.m_history.m_stopped = false →
    s.m_cached_block_timestamps = s.m_history.timestamps

def Current (s : BlockClockModel) : Prop :=
  s.m_timeline.block_timestamps = inPeriod s.m_timeline.period_start s.m_cached_block_timestamps

structure Awake (s : BlockClockModel) : Prop where
  pending : s.m_history_refresh_pending.toNat = s.posted + if s.lock = some .post then 1 else 0
  m_changed : s.constructed = true → s.m_stopped = false → s.m_history.m_stopped = false →
    s.m_history.m_changed = true
  woken : s.constructed = true → s.m_stopped = false → s.m_history.m_initialized = true → s.m_history.m_dirty = true →
    s.m_history.m_stopped = false → s.lock ≠ none ∨ 0 < s.posted ∨ s.phase ≠ .idle
  fresh : s.Fresh
  current : s.phase = .idle ∨ s.phase = .taking → s.Current
  timer : s.phase.tick = none → (s.m_clock_timer.isSome = true ↔ s.m_stopped = false)
  m_stopped : s.m_stopped = true → s.phase = .idle

theorem awake_notified {done : BlockClockHistory × Bool} (h : s.Awake) (hlock : s.lock = none)
    (hdone : Notices s.m_history done) : (s.notified done).Awake := by
  obtain ⟨hstopped, hchanged, hsaid⟩ := hdone
  have hpending := h.pending
  rw [hlock] at hpending
  refine ⟨?_, fun hdone hs hh => ?_, fun hdone hs hinit hdirty hh => ?_, fun hinit hdirty hh => ?_, h.current, h.timer,
    h.m_stopped⟩
  · have hnone : (if done.2 then some Callback.exchange else none) ≠ some .post := by split <;> simp
    simpa [notified, hnone] using hpending
  · exact hchanged.trans (h.m_changed hdone hs (hstopped ▸ hh))
  · rcases hsaid hinit with ⟨-, hcall⟩ | ⟨hsame, hcall⟩
    · have hset := h.m_changed hdone hs (hstopped ▸ hh)
      left
      simp [notified, hcall, hset]
    · simp only [notified, hsame] at hinit hdirty hh ⊢
      rcases h.woken hdone hs hinit hdirty hh with hheld | hrest
      · exact absurd hlock hheld
      · exact .inr hrest
  · rcases hsaid hinit with ⟨hnow, -⟩ | ⟨hsame, -⟩
    · exact absurd (hnow.symm.trans hdirty) (by simp)
    · simp only [notified, hsame] at hinit hdirty hh ⊢
      exact h.fresh hinit hdirty hh

theorem awake_callback (h : s.Awake) : s.callback.Awake := by
  have hpending := h.pending
  unfold callback
  split
  · exact h
  · rename_i hlock
    rw [hlock] at hpending
    refine ⟨?_, h.m_changed, fun _ _ _ _ _ => ?_, h.fresh, h.current, h.timer, h.m_stopped⟩
    · cases hold : s.m_history_refresh_pending <;> simp_all
    · cases hold : s.m_history_refresh_pending with
      | false => simp
      | true =>
        right
        left
        rw [hold] at hpending
        simp at hpending
        exact hpending ▸ Nat.one_pos
  · rename_i hlock
    rw [hlock] at hpending
    exact ⟨by simpa using hpending, h.m_changed, fun _ _ _ _ _ => .inr (.inl (Nat.succ_pos _)), h.fresh, h.current,
      h.timer, h.m_stopped⟩

theorem awake_refreshHistory (h : s.Awake) (hidle : s.phase = .idle) (hposted : 0 < s.posted) :
    s.refreshHistory.Awake := by
  have hpending := h.pending
  have hle := Bool.toNat_le s.m_history_refresh_pending
  have hcurrent := h.current (.inl hidle)
  have htimer := h.timer (by rw [hidle]; rfl)
  refine ⟨?_, h.m_changed, fun _ hs _ _ _ => ?_, h.fresh, fun _ => hcurrent, fun _ => htimer, fun hs => ?_⟩
  · show 0 = s.posted - 1 + if s.lock = some .post then 1 else 0
    by_cases hpost : s.lock = some .post
    · rw [if_pos hpost] at hpending ⊢
      omega
    · rw [if_neg hpost] at hpending ⊢
      omega
  · right; right
    simp only [refreshHistory]
    have hs : s.m_stopped = false := hs
    simp [hs]
  · have hs : s.m_stopped = true := hs
    simp [refreshHistory, hs]

theorem current_replaceBlockHistory (s : BlockClockModel) (period_changed : Bool) :
    (s.replaceBlockHistory period_changed).Current := by
  unfold replaceBlockHistory
  dsimp only
  split
  · rename_i h
    simp only [Bool.and_eq_true, decide_eq_true_eq] at h
    exact h.1
  · rfl

theorem replaceBlockHistory_frame (s : BlockClockModel) (period_changed : Bool) :
    s.replaceBlockHistory period_changed =
      { s with m_timeline := (s.replaceBlockHistory period_changed).m_timeline } := by
  unfold replaceBlockHistory
  dsimp only
  split <;> rfl

theorem takeSnapshot_spec (h : s.Fresh) :
    ∃ history cached, s.takeSnapshot.1 = { s with m_history := history, m_cached_block_timestamps := cached } ∧
      history.m_stopped = s.m_history.m_stopped ∧ history.m_changed = s.m_history.m_changed ∧
      (history.m_initialized = true → history.m_stopped = false →
        history.m_dirty = false ∧ cached = history.timestamps) ∧
      (s.takeSnapshot.2 = false → cached = s.m_cached_block_timestamps) := by
  unfold takeSnapshot BlockClockHistory.takeSnapshot
  split
  · rename_i hnone
    refine ⟨s.m_history, s.m_cached_block_timestamps, rfl, rfl, rfl, fun hinit hh => ?_, fun _ => rfl⟩
    have hdirty : s.m_history.m_dirty = false := by simpa [hinit, hh] using hnone
    exact ⟨hdirty, h hinit hdirty hh⟩
  · exact ⟨{ s.m_history with m_dirty := false }, s.m_history.timestamps, rfl, rfl, rfl, fun _ _ => ⟨rfl, rfl⟩,
      fun h => by simp at h⟩

/-- The model's thread comes to rest once the snapshot that it shows is taken. -/
theorem awake_afterUpdate {tick : Option QDateTime}
    (hpending : s.m_history_refresh_pending.toNat = s.posted + if s.lock = some .post then 1 else 0)
    (hchanged : s.constructed = true → s.m_stopped = false → s.m_history.m_stopped = false →
      s.m_history.m_changed = true)
    (hwoken : s.constructed = true → s.m_history.m_initialized = true → s.m_history.m_dirty = true →
      s.m_history.m_stopped = false → s.lock ≠ none ∨ 0 < s.posted)
    (hfresh : s.Fresh) (hcurrent : tick.isSome = true → s.Current)
    (htimer : tick = none → (s.m_clock_timer.isSome = true ↔ s.m_stopped = false)) (hrunning : s.m_stopped = false) :
    (s.afterUpdate tick).Awake := by
  unfold afterUpdate
  split
  · have hframe := replaceBlockHistory_frame s false
    have hshown := current_replaceBlockHistory s false
    generalize s.replaceBlockHistory false = t at hframe hshown
    rw [hframe] at hshown ⊢
    exact ⟨hpending, hchanged, fun hdone _ hinit hdirty hh => (hwoken hdone hinit hdirty hh).imp_right .inl, hfresh,
      fun _ => hshown, fun _ => htimer rfl, fun _ => rfl⟩
  · unfold scheduleNextClockUpdate
    rw [if_neg (by simp [hrunning])]
    exact ⟨hpending, hchanged, fun hdone _ hinit hdirty hh => (hwoken hdone hinit hdirty hh).imp_right .inl, hfresh,
      fun _ => hcurrent rfl, fun _ => by simp [hrunning], fun _ => rfl⟩

theorem awake_updateCurrentTime {tick : Option QDateTime} (current_time : QDateTime)
    (hpending : s.m_history_refresh_pending.toNat = s.posted + if s.lock = some .post then 1 else 0)
    (hchanged : s.constructed = true → s.m_stopped = false → s.m_history.m_stopped = false →
      s.m_history.m_changed = true)
    (hwoken : s.constructed = true → s.m_history.m_initialized = true → s.m_history.m_dirty = true →
      s.m_history.m_stopped = false → s.lock ≠ none ∨ 0 < s.posted)
    (hfresh : s.Fresh) (hcurrent : tick.isSome = true → s.Current)
    (htimer : tick = none → (s.m_clock_timer.isSome = true ↔ s.m_stopped = false)) (hrunning : s.m_stopped = false) :
    (s.updateCurrentTime current_time tick).Awake := by
  unfold updateCurrentTime
  rw [if_neg (by simp [hrunning])]
  dsimp only
  split
  · exact ⟨hpending, hchanged, fun _ _ _ _ _ => .inr (.inr (by simp)), hfresh, fun h => by simp at h, htimer,
      fun hs => absurd (hrunning.symm.trans hs) (by simp)⟩
  · exact awake_afterUpdate hpending hchanged hwoken hfresh hcurrent htimer hrunning

theorem awake_proceed (h : s.Awake) (current_time : QDateTime) : (s.proceed current_time).Awake := by
  have hrunning (hphase : s.phase ≠ .idle) : s.m_stopped = false := by
    by_contra hs
    exact hphase (h.m_stopped (by simpa using hs))
  have htimer := h.timer
  unfold proceed
  split
  · exact h
  · rename_i hphase
    have hs := hrunning (by rw [hphase]; simp)
    rw [hphase] at htimer
    obtain ⟨history, cached, hsnap, hstopped, hchanged, hclean, hsame⟩ := takeSnapshot_spec h.fresh
    have hchanged' : s.constructed = true → s.m_stopped = false → history.m_stopped = false →
        history.m_changed = true := fun hdone hs hh => hchanged.trans (h.m_changed hdone hs (hstopped ▸ hh))
    dsimp only
    split
    · rw [hsnap]
      exact awake_updateCurrentTime current_time h.pending hchanged'
        (fun _ hinit hdirty hh => absurd ((hclean hinit hh).1.symm.trans hdirty) (by simp))
        (fun hinit _ hh => (hclean hinit hh).2) (fun h => by simp at h) (fun _ => htimer rfl) hs
    · rename_i hnone
      rw [hsnap]
      have hcurrent := h.current (.inr hphase)
      rw [Current, ← hsame (by simpa using hnone)] at hcurrent
      exact ⟨h.pending, hchanged', fun _ _ hinit hdirty hh => absurd ((hclean hinit hh).1.symm.trans hdirty) (by simp),
        fun hinit _ hh => (hclean hinit hh).2, fun _ => hcurrent, fun _ => htimer rfl, fun _ => rfl⟩
  · rename_i tick hphase
    have hs := hrunning (by rw [hphase]; simp)
    rw [hphase] at htimer
    refine ⟨h.pending, fun hdone hs hh => ?_, fun _ _ _ _ _ => .inr (.inr (by simp)), fun hinit hdirty hh => ?_,
      fun h => by simp at h, htimer, fun hs' => absurd (hs.symm.trans hs') (by simp)⟩
    · rcases setRetentionStart_cases s.m_history (s.m_timeline.period_start - PERIOD_SECONDS) with
        hsame | ⟨-, hstopped, hchanged⟩
      · dsimp only at hh ⊢
        rw [hsame] at hh ⊢
        exact h.m_changed hdone hs hh
      · exact hchanged.trans (h.m_changed hdone hs (hstopped ▸ hh))
    · rcases setRetentionStart_cases s.m_history (s.m_timeline.period_start - PERIOD_SECONDS) with
        hsame | ⟨hnow, -, -⟩
      · dsimp only at hinit hdirty hh ⊢
        rw [hsame] at hinit hdirty hh ⊢
        exact h.fresh hinit hdirty hh
      · exact absurd (hnow.symm.trans hdirty) (by simp)
  · rename_i tick hphase
    have hs := hrunning (by rw [hphase]; simp)
    rw [hphase] at htimer
    obtain ⟨history, cached, hsnap, hstopped, hchanged, hclean, -⟩ := takeSnapshot_spec h.fresh
    have hframe := replaceBlockHistory_frame s.takeSnapshot.1 true
    have hshown := current_replaceBlockHistory s.takeSnapshot.1 true
    rw [hsnap] at hframe hshown
    rw [hsnap, hframe]
    rw [hframe] at hshown
    exact awake_afterUpdate h.pending (fun hdone hs hh => hchanged.trans (h.m_changed hdone hs (hstopped ▸ hh)))
      (fun _ hinit hdirty hh => absurd ((hclean hinit hh).1.symm.trans hdirty) (by simp))
      (fun hinit _ hh => (hclean hinit hh).2) (fun _ => hshown) htimer hs

theorem awake_timeout (h : s.Awake) (hidle : s.phase = .idle) (htimer : s.m_clock_timer.isSome = true)
    (current_time : QDateTime) : (s.timeout current_time).Awake := by
  have hs : s.m_stopped = false := (h.timer (by rw [hidle]; rfl)).1 htimer
  refine awake_updateCurrentTime current_time h.pending h.m_changed (fun hdone hinit hdirty hh => ?_) h.fresh
    (fun _ => h.current (.inl hidle)) (fun h => by simp at h) hs
  rcases h.woken hdone hs hinit hdirty hh with hheld | hposted | hphase
  · exact .inl hheld
  · exact .inr hposted
  · exact absurd hidle hphase

theorem setChangedCallback_cases (h : BlockClockHistory) (callback : Bool) :
    ((h.setChangedCallback callback).1 = h ∧ h.m_stopped = true) ∨
      (h.setChangedCallback callback).1 = { h with m_changed := callback } ∧
        (h.setChangedCallback callback).2 = (callback && h.m_initialized && h.m_dirty) := by
  unfold BlockClockHistory.setChangedCallback
  split
  · exact .inl ⟨rfl, by assumption⟩
  · exact .inr ⟨rfl, rfl⟩

theorem awake_setChangedCallback (h : s.Awake) (hidle : s.phase = .idle) (hlock : s.lock = none) :
    (s.step .setChangedCallback).Awake := by
  have hpending := h.pending
  rw [hlock] at hpending
  have hcurrent := h.current (.inl hidle)
  have hnone (called : Bool) : (if called then some Callback.exchange else none) ≠ some .post := by
    cases called <;> simp
  refine ⟨by simpa [step, notified, hnone] using hpending, fun _ hs hh => ?_, fun _ hs hinit hdirty hh => ?_,
    fun hinit hdirty hh => ?_, fun _ => hcurrent, h.timer, h.m_stopped⟩ <;>
    simp only [step, notified] at *
  · rcases setChangedCallback_cases s.m_history true with ⟨hsame, hstopped⟩ | ⟨hset, -⟩
    · rw [hsame] at hh
      exact absurd (hstopped.symm.trans hh) (by simp)
    · rw [hset]
  · rcases setChangedCallback_cases s.m_history true with ⟨hsame, hstopped⟩ | ⟨hset, hcalled⟩
    · rw [hsame] at hh
      exact absurd (hstopped.symm.trans hh) (by simp)
    · rw [hset] at hinit hdirty
      left
      simp_all
  · rcases setChangedCallback_cases s.m_history true with ⟨hsame, -⟩ | ⟨hset, -⟩
    · rw [hsame] at hinit hdirty hh ⊢
      exact h.fresh hinit hdirty hh
    · rw [hset] at hinit hdirty hh ⊢
      exact h.fresh hinit hdirty hh

theorem awake_stop (h : s.Awake) (hidle : s.phase = .idle) : s.stop.Awake := by
  unfold stop
  split
  · exact h
  · have hcurrent := h.current (.inl hidle)
    refine ⟨h.pending, fun _ hs => by simp at hs, fun _ hs => by simp at hs, fun hinit hdirty hh => ?_,
      fun _ => hcurrent, fun _ => by simp, fun _ => hidle⟩
    dsimp only at hinit hdirty hh ⊢
    rcases setChangedCallback_cases s.m_history false with ⟨hsame, -⟩ | ⟨hsame, -⟩ <;>
    · rw [hsame] at hinit hdirty hh ⊢
      exact h.fresh hinit hdirty hh

theorem awake_step (h : s.Awake) (e : Event) (he : s.Allowed e) : (s.step e).Awake := by
  cases e with
  | blockConnected historical hash timestamp =>
    exact awake_notified h he (notices_blockConnected s.m_history historical hash timestamp)
  | blockDisconnected hash timestamp => exact awake_notified h he (notices_record s.m_history hash timestamp false)
  | loaded blocks => exact awake_notified h he (notices_initializeWith s.m_history blocks)
  | disconnect =>
    exact ⟨h.pending, fun _ _ hh => by simp [step, BlockClockHistory.stop] at hh,
      fun _ _ _ _ hh => by simp [step, BlockClockHistory.stop] at hh,
      fun _ _ hh => by simp [step, BlockClockHistory.stop] at hh, h.current, h.timer, h.m_stopped⟩
  | setChangedCallback => exact awake_setChangedCallback h he.1 he.2.1
  | callback => exact awake_callback h
  | refresh => exact awake_refreshHistory h he.1 he.2
  | timeout current_time => exact awake_timeout h he.1 he.2.2 current_time
  | proceed current_time => exact awake_proceed h current_time
  | stop => exact awake_stop h he.1

theorem awake_start (current_time : QDateTime) : (start current_time).Awake := by
  refine awake_updateCurrentTime current_time rfl ?_ ?_ ?_ ?_ ?_ rfl <;> simp [Fresh, Current, inPeriod]

/-- Once the model's thread is at rest with nothing queued, the clock shows the blocks of its period that the history
holds, and it will look at the time again. At no time is more than one refresh queued. -/
theorem clock_run {current_time : QDateTime} (h : Reach.Reaches step Allowed (start current_time) s) :
    s.posted ≤ 1 ∧ (s.phase = .idle → s.posted = 0 → s.lock = none → s.constructed = true → s.m_stopped = false →
      s.m_clock_timer.isSome = true ∧ (s.m_history.m_initialized = true → s.m_history.m_stopped = false →
        s.m_timeline.block_timestamps = inPeriod s.m_timeline.period_start s.m_history.timestamps)) := by
  have hawake : s.Awake := h.invariant (awake_start current_time) fun _ e h he => awake_step h e he
  have hpending := hawake.pending
  refine ⟨?_, fun hidle hposted hlock hdone hs => ⟨(hawake.timer (by rw [hidle]; rfl)).2 hs, fun hinit hh => ?_⟩⟩
  · have hle := Bool.toNat_le s.m_history_refresh_pending
    omega
  · have hdirty : s.m_history.m_dirty = false := by
      by_contra hdirty
      rcases hawake.woken hdone hs hinit (by simpa using hdirty) hh with hheld | hqueued | hphase
      · exact hheld hlock
      · omega
      · exact hphase hidle
    rw [hawake.current (.inl hidle), hawake.fresh hinit hdirty hh]

/-- The model once it is constructed at a midnight. -/
def opened : BlockClockModel :=
  { m_history := { m_changed := true, m_retention_start := 86400 - PERIOD_SECONDS, m_dirty := true }
    m_timeline := { period_start := 86400 }
    m_clock_timer := some CLOCK_UPDATE_INTERVAL_MS
    constructed := true }

theorem opened_eq :
    [Event.proceed ⟨86400, 0⟩, .proceed ⟨86400, 0⟩, .setChangedCallback].foldl step (start ⟨86400, 0⟩) = opened := by
  simp [start, updateCurrentTime, afterUpdate, scheduleNextClockUpdate, proceed, takeSnapshot, step, opened, notified,
    BlockClockHistory.takeSnapshot, BlockClockHistory.setChangedCallback, BlockClockHistory.setRetentionStart,
    replaceBlockHistory, inPeriod, PeriodStartFor, PERIOD_SECONDS, CLOCK_UPDATE_INTERVAL_MS]
  constructor <;> exact Std.ExtTreeMap.ext_getElem? fun hash => by simp

theorem clock_run_one_block :
    let refresh : List Event := [.loaded (Std.ExtTreeMap.empty.insert 7 86500), .callback, .callback, .refresh]
    let s := (refresh.foldl step opened).step (.proceed ⟨86520, 120000⟩)
    s.m_clock_timer.isSome = true ∧
      s.m_timeline.block_timestamps = inPeriod s.m_timeline.period_start s.m_history.timestamps := by
  intro refresh s
  have hopened : Reach.Reaches step Allowed (start ⟨86400, 0⟩) opened := by
    rw [← opened_eq]
    refine Reach.Reaches.play .refl ⟨rfl, rfl, ?_, trivial⟩
    simp [start, updateCurrentTime, proceed, step, Allowed, afterUpdate, scheduleNextClockUpdate, replaceBlockHistory,
      inPeriod, PeriodStartFor, takeSnapshot, BlockClockHistory.takeSnapshot, BlockClockHistory.setRetentionStart]
  have hrefresh : Reach.Plays step Allowed opened refresh := ⟨rfl, trivial, trivial, ⟨rfl, by decide⟩, trivial⟩
  let taken := (refresh.foldl step opened).takeSnapshot.1
  have hs : s = { taken with m_timeline := (taken.replaceBlockHistory false).m_timeline, phase := .idle } :=
    congrArg (fun t : BlockClockModel => { t with phase := .idle }) (replaceBlockHistory_frame taken false)
  obtain ⟨-, hshown⟩ := clock_run ((hopened.play hrefresh).snoc (.proceed ⟨86520, 120000⟩) rfl)
  rw [show BlockClockModel.step _ _ = s from rfl] at hshown
  rw [hs] at hshown ⊢
  exact (hshown rfl rfl rfl rfl rfl).imp_right fun h => h rfl rfl

end BlockClockModel

end GuiQml.BlockClock
