import GuiQml.BlockClock.History
import GuiQml.Lib.Reach
import Mathlib.Data.List.Sort

/-!
# What the block clock shows

`BlockClockModel` over its history. The history calls the model under its lock, from the thread that notifies it,
and the call takes two steps. The model reads the history in steps of its own thread, each of which takes the
lock. The fractions that the dial draws are made of the timeline and are left out.
-/

namespace GuiQml.BlockClock

def PERIOD_SECONDS : Int := 12 * 60 * 60

def CLOCK_UPDATE_INTERVAL_MS : Nat := 60 * 1000

/-- A local time. -/
structure QDateTime where
  toSecsSinceEpoch : Int
  msecsSinceStartOfDay : Nat
  deriving DecidableEq, Repr

def PeriodStartFor (current_time : QDateTime) : Int :=
  let seconds_since_midnight : Int := (current_time.msecsSinceStartOfDay / 1000 : Nat)
  current_time.toSecsSinceEpoch - seconds_since_midnight % PERIOD_SECONDS

structure BlockClockTimeline where
  period_start : Int := 0
  block_timestamps : List Int := []
  deriving DecidableEq, Repr

/-- What `scheduleHistoryRefresh` does next. -/
inductive Callback
  | exchange
  | post
  deriving DecidableEq, Repr

/-- Where the model's thread stands. What is left to do is a refresh, or a tick of the clock at a time. -/
inductive Phase
  | idle
  | taking
  | retaining (tick : Option QDateTime)
  | retaken (tick : Option QDateTime)
  deriving DecidableEq, Repr

structure BlockClockModel where
  m_history : BlockClockHistory := {}
  /-- The callback that runs under the lock of the history. -/
  lock : Option Callback := none
  m_history_refresh_pending : Bool := false
  /-- The refreshes in the queue of the model's thread. -/
  posted : Nat := 0
  phase : Phase := .idle
  m_cached_block_timestamps : List Int := []
  m_timeline : BlockClockTimeline := {}
  /-- The milliseconds for which the timer was started, while it is active. -/
  m_clock_timer : Option Nat := none
  /-- Whether the history has the callback. -/
  constructed : Bool := false
  m_stopped : Bool := false

inductive Event
  | blockConnected (historical : Bool) (hash : Hash) (timestamp : Int)
  | blockDisconnected (hash : Hash) (timestamp : Int)
  | loaded (blocks : Blocks)
  /-- The subscription ends. -/
  | disconnect
  /-- The constructor sets the callback. -/
  | setChangedCallback
  /-- The callback goes on. -/
  | callback
  /-- The model's thread takes a refresh from its queue. -/
  | refresh
  | timeout (current_time : QDateTime)
  /-- The model's thread goes on, at a time. -/
  | proceed (current_time : QDateTime)
  | stop

/-- The timestamps of a period, sorted. -/
def inPeriod (period_start : Int) (block_timestamps : List Int) : List Int :=
  (block_timestamps.mergeSort fun a b => a ≤ b).filter fun timestamp =>
    !(timestamp < period_start || timestamp ≥ period_start + PERIOD_SECONDS)

namespace BlockClockModel

variable (s : BlockClockModel)

def replaceBlockHistory (period_changed : Bool) : BlockClockModel :=
  let block_timestamps := inPeriod s.m_timeline.period_start s.m_cached_block_timestamps
  if s.m_timeline.block_timestamps = block_timestamps && !period_changed then s
  else { s with m_timeline := { s.m_timeline with block_timestamps } }

def scheduleNextClockUpdate (current_time : QDateTime) : BlockClockModel :=
  if s.m_stopped then s
  else
    let milliseconds_into_minute := current_time.msecsSinceStartOfDay % CLOCK_UPDATE_INTERVAL_MS
    { s with m_clock_timer := some (CLOCK_UPDATE_INTERVAL_MS - milliseconds_into_minute) }

/-- What comes after `updateCurrentTime`. -/
def afterUpdate : Option QDateTime → BlockClockModel
  | none => { s.replaceBlockHistory false with phase := .idle }
  | some current_time => { s.scheduleNextClockUpdate current_time with phase := .idle }

/-- `updateCurrentTime` up to where it needs the history. -/
def updateCurrentTime (current_time : QDateTime) (tick : Option QDateTime) : BlockClockModel :=
  if s.m_stopped then s.afterUpdate tick
  else
    let period_start := PeriodStartFor current_time
    if s.m_timeline.period_start ≠ period_start then
      { s with m_timeline := { s.m_timeline with period_start }, phase := .retaining tick }
    else s.afterUpdate tick

/-- A snapshot is taken, and kept where there is one. -/
def takeSnapshot : BlockClockModel × Bool :=
  let taken := s.m_history.takeSnapshot
  ({ s with
    m_history := taken.2
    m_cached_block_timestamps := taken.1.getD s.m_cached_block_timestamps }, taken.1.isSome)

def proceed (current_time : QDateTime) : BlockClockModel :=
  match s.phase with
  | .idle => s
  | .taking =>
    let taken := s.takeSnapshot
    if taken.2 then taken.1.updateCurrentTime current_time none else { taken.1 with phase := .idle }
  | .retaining tick =>
    { s with
      m_history := s.m_history.setRetentionStart (s.m_timeline.period_start - PERIOD_SECONDS)
      phase := .retaken tick }
  | .retaken tick => (s.takeSnapshot.1.replaceBlockHistory true).afterUpdate tick

/-- The queued call of `refreshHistory`. -/
def refreshHistory : BlockClockModel :=
  { s with
    posted := s.posted - 1
    m_history_refresh_pending := false
    phase := if s.m_stopped then .idle else .taking }

def timeout (current_time : QDateTime) : BlockClockModel :=
  { s with m_clock_timer := none }.updateCurrentTime current_time (some current_time)

def stop : BlockClockModel :=
  if s.m_stopped then s
  else { s with m_stopped := true, m_history := (s.m_history.setChangedCallback false).1, m_clock_timer := none }

/-- What the history has done, and whether it calls back. -/
def notified (done : BlockClockHistory × Bool) : BlockClockModel :=
  { s with m_history := done.1, lock := if done.2 then some .exchange else none }

/-- `scheduleHistoryRefresh`, one step at a time. -/
def callback : BlockClockModel :=
  match s.lock with
  | none => s
  | some .exchange =>
    { s with m_history_refresh_pending := true, lock := if s.m_history_refresh_pending then none else some .post }
  | some .post => { s with posted := s.posted + 1, lock := none }

def step (s : BlockClockModel) : Event → BlockClockModel
  | .blockConnected historical hash timestamp => s.notified (s.m_history.blockConnected historical hash timestamp)
  | .blockDisconnected hash timestamp => s.notified (s.m_history.blockDisconnected hash timestamp)
  | .loaded blocks => s.notified (s.m_history.initializeWith blocks)
  | .disconnect => { s with m_history := s.m_history.stop }
  | .setChangedCallback => { s.notified (s.m_history.setChangedCallback true) with constructed := true }
  | .callback => s.callback
  | .refresh => s.refreshHistory
  | .timeout current_time => s.timeout current_time
  | .proceed current_time => s.proceed current_time
  | .stop => s.stop

/-- The lock is held by one thread, and the model's thread does one thing after the other. -/
def Allowed (s : BlockClockModel) : Event → Prop
  | .blockConnected .. | .blockDisconnected .. | .loaded _ | .disconnect => s.lock = none
  | .setChangedCallback => s.phase = .idle ∧ s.lock = none ∧ s.constructed = false
  | .callback => True
  | .refresh => s.phase = .idle ∧ 0 < s.posted
  | .timeout _ => s.phase = .idle ∧ s.constructed = true ∧ s.m_clock_timer.isSome
  | .proceed _ => s.lock = none
  | .stop => s.phase = .idle ∧ s.constructed = true ∧ s.lock = none

/-- The constructor begins, over a new history. -/
def start (current_time : QDateTime) : BlockClockModel :=
  ({} : BlockClockModel).updateCurrentTime current_time (some current_time)

end BlockClockModel

end GuiQml.BlockClock
