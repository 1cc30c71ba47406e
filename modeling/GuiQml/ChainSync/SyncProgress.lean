import GuiQml.Lib.RollingWindow
import Mathlib.Algebra.Order.Field.Rat
import Mathlib.Data.Rat.Floor

/-!
# The estimate of the time left

`SyncProgressTracker`, in exact arithmetic: a `double` is its value, or `none` when it is not finite.
-/

namespace GuiQml.ChainSync

def WINDOW_MILLISECONDS : Int := 500000

def MAX_SAMPLES : Nat := 5000

def PUBLISH_INTERVAL_MILLISECONDS : Int := 1000

/-- `std::numeric_limits<int64_t>::max()`. -/
def INT64_MAX : Int := 2 ^ 63 - 1

structure Sample where
  milliseconds : Int
  progress : ℚ
deriving DecidableEq

structure SyncProgressTracker where
  m_samples : List Sample := []
  m_last_publication : Option Int := none

inductive TrackerEvent where
  | addSample (monotonic_milliseconds : Int) (progress : Option ℚ)
  | reset

namespace SyncProgressTracker

/-! ## The tracker -/

/-- The last loop of the trimming. -/
def dropExcess : List Sample → List Sample
  | [] => []
  | s :: rest => if MAX_SAMPLES < (s :: rest).length then dropExcess rest else s :: rest

def reset (_ : SyncProgressTracker) : SyncProgressTracker := {}

/-- Time goes backwards. -/
def goesBack (monotonic_milliseconds : Int) (samples : List Sample) : Bool :=
  samples.getLast?.any fun s => monotonic_milliseconds < s.milliseconds

/-- The sample is kept, and what it makes too old or too much is not. -/
def push (m : SyncProgressTracker) (s : Sample) : SyncProgressTracker :=
  let cutoff := s.milliseconds - WINDOW_MILLISECONDS
  { m_samples := dropExcess (RollingWindow.dropOld Sample.milliseconds cutoff (m.m_samples ++ [s]))
    m_last_publication := some (m.m_last_publication.getD s.milliseconds) }

/-- `static_cast<int64_t>`, towards zero. -/
def toInt64 (r : ℚ) : Int := if r < 0 then ⌈r⌉ else ⌊r⌋

/-- The progress over the window goes on to the end. -/
def estimate (oldest newest : Sample) : Option Int :=
  let progress_delta := newest.progress - oldest.progress
  let time_delta := newest.milliseconds - oldest.milliseconds
  if progress_delta ≤ 0 ∨ time_delta ≤ 0 then none
  else
    let remaining : ℚ := (1 - newest.progress) / progress_delta * time_delta
    if remaining < 0 then none
    else if INT64_MAX ≤ remaining then some INT64_MAX
    else some (toInt64 remaining)

/-- What comes after the trimming. -/
def publish (m : SyncProgressTracker) (monotonic_milliseconds : Int) : SyncProgressTracker × Option Int :=
  let last := m.m_last_publication.getD monotonic_milliseconds
  if monotonic_milliseconds - last < PUBLISH_INTERVAL_MILLISECONDS ∨ m.m_samples.length < 2 then (m, none)
  else
    ({ m with m_last_publication := some monotonic_milliseconds },
      m.m_samples.head?.bind fun oldest => m.m_samples.getLast?.bind fun newest => estimate oldest newest)

def addSample (m : SyncProgressTracker) (monotonic_milliseconds : Int) :
    Option ℚ → SyncProgressTracker × Option Int
  | none => (m, none)
  | some progress =>
    let m := if goesBack monotonic_milliseconds m.m_samples then m.reset else m
    (m.push ⟨monotonic_milliseconds, progress⟩).publish monotonic_milliseconds

end SyncProgressTracker

/-! ## Runs -/

/-- The tracker, the samples given to it since the last reset, and the times of the estimates since then. -/
structure Tracked where
  tracker : SyncProgressTracker := {}
  since : List Sample := []
  estimated : List Int := []

namespace Tracked

def step (t : Tracked) : TrackerEvent → Tracked
  | .reset => { tracker := t.tracker.reset }
  | .addSample _ none => t
  | .addSample now (some progress) =>
    let (tracker, result) := t.tracker.addSample now (some progress)
    let kept := if SyncProgressTracker.goesBack now t.since then {} else t
    { tracker
      since := kept.since ++ [⟨now, progress⟩]
      estimated := kept.estimated ++ if result.isSome then [now] else [] }

def run (events : List TrackerEvent) : Tracked := events.foldl step {}

end Tracked

/-! ## One sample -/

section Sample

variable {m : SyncProgressTracker} {s oldest newest : Sample} {now left : Int} {t : Tracked} {progress : ℚ}

namespace SyncProgressTracker

open RollingWindow (Retains)

theorem dropExcess_eq (l : List Sample) : dropExcess l = l.rtake MAX_SAMPLES := by
  induction l with
  | nil => rfl
  | cons s rest ih =>
    unfold dropExcess
    split
    next hexcess =>
      rw [ih]
      unfold List.rtake
      rw [List.length_cons, Nat.succ_sub (Nat.le_of_lt_succ hexcess), List.drop_succ_cons]
    next hfits => rw [TailWindow.rtake_of_length_le (Nat.le_of_not_lt hfits)]

theorem push_retains {cutoff : Int} {since : List Sample}
    (h : Retains Sample.milliseconds MAX_SAMPLES cutoff since m.m_samples)
    (hcutoff : cutoff ≤ s.milliseconds - WINDOW_MILLISECONDS)
    (hlast : ∀ a ∈ since, a.milliseconds ≤ s.milliseconds) :
    Retains Sample.milliseconds MAX_SAMPLES (s.milliseconds - WINDOW_MILLISECONDS) (since ++ [s])
      (m.push s).m_samples := by
  have hpush := h.push hcutoff (sub_lt_self _ (by decide)) hlast
  rwa [← dropExcess_eq] at hpush

theorem publish_cases (m : SyncProgressTracker) (now : Int) :
    m.publish now = (m, none) ∨
      m.m_last_publication.getD now + PUBLISH_INTERVAL_MILLISECONDS ≤ now ∧ ∃ result,
        m.publish now = ({ m with m_last_publication := some now }, result) ∧
          ∀ left, result = some left → ∃ oldest newest, m.m_samples.head? = some oldest ∧
            m.m_samples.getLast? = some newest ∧ estimate oldest newest = some left := by
  simp only [publish]
  split
  next => exact .inl rfl
  next hpublish =>
    rw [not_or, not_lt] at hpublish
    refine .inr ⟨by linarith, _, rfl, fun left hleft => ?_⟩
    rw [Option.bind_eq_some_iff] at hleft
    obtain ⟨oldest, holdest, hleft⟩ := hleft
    rw [Option.bind_eq_some_iff] at hleft
    obtain ⟨newest, hnewest, hleft⟩ := hleft
    exact ⟨oldest, newest, holdest, hnewest, hleft⟩

theorem estimate_eq_some (h : estimate oldest newest = some left) :
    0 < newest.progress - oldest.progress ∧
      left = min ⌊(1 - newest.progress) * (newest.milliseconds - oldest.milliseconds : Int) /
        (newest.progress - oldest.progress)⌋ INT64_MAX ∧ 0 ≤ left := by
  simp only [estimate] at h
  split at h
  next => cases h
  next hdelta =>
  split at h
  next => cases h
  next hremaining =>
  rw [not_or, not_le, not_le] at hdelta
  rw [not_lt] at hremaining
  have hvalue : (1 - newest.progress) / (newest.progress - oldest.progress) *
      ((newest.milliseconds - oldest.milliseconds : Int) : ℚ) =
        (1 - newest.progress) * ((newest.milliseconds - oldest.milliseconds : Int) : ℚ) /
          (newest.progress - oldest.progress) := by
    ring
  rw [hvalue] at h hremaining
  refine ⟨hdelta.1, ?_⟩
  split at h
  next hmax =>
    cases h
    exact ⟨(min_eq_right (Int.le_floor.mpr hmax)).symm, by decide⟩
  next hmax =>
    cases h
    rw [toInt64, if_neg (not_lt.mpr hremaining)]
    refine ⟨(min_eq_left ?_).symm, Int.floor_nonneg.mpr hremaining⟩
    exact (Int.floor_lt.mpr (not_le.mp hmax)).le

end SyncProgressTracker

/-! ## Every run -/

namespace Tracked

open RollingWindow (Retains)
open SyncProgressTracker (goesBack)

/-- The time of the last publication, or of the first sample, is past every estimate. -/
structure Sound (t : Tracked) : Prop where
  last : t.tracker.m_samples.getLast? = t.since.getLast?
  retains : ∀ now, goesBack now t.since = false → ∃ cutoff ≤ now - WINDOW_MILLISECONDS,
    Retains Sample.milliseconds MAX_SAMPLES cutoff t.since t.tracker.m_samples
  spaced : t.estimated.Pairwise fun a b => a + PUBLISH_INTERVAL_MILLISECONDS ≤ b
  past : ∀ a ∈ t.estimated, ∃ last, t.tracker.m_last_publication = some last ∧ a ≤ last

/-- What holds of the window after a sample at `now`. -/
def Windowed (t : Tracked) (now : Int) : Prop :=
  Retains Sample.milliseconds MAX_SAMPLES (now - WINDOW_MILLISECONDS) t.since t.tracker.m_samples

theorem sound_empty : ({} : Tracked).Sound where
  last := rfl
  retains now _ := ⟨now - WINDOW_MILLISECONDS, le_rfl, RollingWindow.retains_nil⟩
  spaced := List.Pairwise.nil
  past _ ha := by cases ha

/-- The run since the sample's reset, if it goes back in time. -/
def kept (t : Tracked) (now : Int) : Tracked := if goesBack now t.since then {} else t

theorem Sound.kept (h : t.Sound) (now : Int) : (t.kept now).Sound ∧ goesBack now (t.kept now).since = false := by
  unfold Tracked.kept
  split
  next => exact ⟨sound_empty, rfl⟩
  next hback => exact ⟨h, by simpa using hback⟩

theorem Sound.addSample (h : t.Sound) : t.tracker.addSample now (some progress) =
    ((t.kept now).tracker.push ⟨now, progress⟩).publish now := by
  have hback : goesBack now t.tracker.m_samples = goesBack now t.since := by
    unfold goesBack
    rw [h.last]
  simp only [SyncProgressTracker.addSample, hback, Tracked.kept]
  split <;> rfl

theorem Sound.step_eq (h : t.Sound) : t.step (.addSample now (some progress)) =
    let published := ((t.kept now).tracker.push ⟨now, progress⟩).publish now
    { tracker := published.1
      since := (t.kept now).since ++ [⟨now, progress⟩]
      estimated := (t.kept now).estimated ++ if published.2.isSome then [now] else [] } := by
  simp only [step, h.addSample]
  rfl

theorem le_of_not_goesBack {since : List Sample} (hordered : RollingWindow.Ordered Sample.milliseconds since)
    (hback : goesBack now since = false) : ∀ a ∈ since, a.milliseconds ≤ now := by
  intro a ha
  cases hlast : since.getLast? with
  | none => rw [List.getLast?_eq_none_iff.mp hlast] at ha; cases ha
  | some z =>
    have hz : z.milliseconds ≤ now := by simpa [goesBack, hlast] using hback
    obtain ⟨front, rfl⟩ := List.getLast?_eq_some_iff.mp hlast
    rcases List.mem_append.mp ha with ha | ha
    · exact ((List.pairwise_append.mp hordered).2.2 a ha z (by simp)).trans hz
    · rwa [List.mem_singleton.mp ha]

theorem sound_of_window {since : List Sample} (hsince : t.since = since ++ [⟨now, progress⟩])
    (hwindow : t.Windowed now)
    (hspaced : t.estimated.Pairwise fun a b => a + PUBLISH_INTERVAL_MILLISECONDS ≤ b)
    (hpast : ∀ a ∈ t.estimated, ∃ last, t.tracker.m_last_publication = some last ∧ a ≤ last) : t.Sound where
  last := by
    unfold Windowed at hwindow
    rw [hsince] at hwindow ⊢
    rw [hwindow.getLast?_eq (by decide), List.getLast?_concat]
  retains later hback := by
    refine ⟨now - WINDOW_MILLISECONDS, sub_le_sub_right ?_ _, hwindow⟩
    exact le_of_not_goesBack hwindow.ordered hback ⟨now, progress⟩ (by simp [hsince])
  spaced := hspaced
  past := hpast

theorem Sound.step_sample (h : t.Sound) (now : Int) (progress : ℚ) :
    (t.step (.addSample now (some progress))).Sound ∧ (t.step (.addSample now (some progress))).Windowed now := by
  obtain ⟨hkept, hback⟩ := h.kept now
  obtain ⟨cutoff, hcutoff, hretains⟩ := hkept.retains now hback
  have hwindow := SyncProgressTracker.push_retains (s := ⟨now, progress⟩) hretains hcutoff
    (le_of_not_goesBack hretains.ordered hback)
  rw [h.step_eq]
  generalize t.kept now = u at *
  have hpast : ∀ a ∈ u.estimated, a ≤ u.tracker.m_last_publication.getD now := by
    intro a ha
    obtain ⟨last, hlast, hle⟩ := hkept.past a ha
    rwa [hlast]
  rcases SyncProgressTracker.publish_cases (u.tracker.push ⟨now, progress⟩) now with
    hpublish | ⟨hinterval, result, hpublish, -⟩
  · simp only [hpublish, Option.isSome_none, Bool.false_eq_true, if_false, List.append_nil]
    refine ⟨sound_of_window rfl hwindow hkept.spaced fun a ha => ?_, hwindow⟩
    exact ⟨_, rfl, hpast a ha⟩
  · simp only [hpublish]
    have hbefore : ∀ a ∈ u.estimated, a + PUBLISH_INTERVAL_MILLISECONDS ≤ now := fun a ha =>
      (add_le_add_left (hpast a ha) _).trans hinterval
    refine ⟨sound_of_window rfl hwindow ?_ fun a ha => ⟨now, rfl, ?_⟩, hwindow⟩
    · split
      · exact List.pairwise_append.mpr ⟨hkept.spaced, List.pairwise_singleton _ _, fun a ha b hb => by
          rw [List.mem_singleton.mp hb]
          exact hbefore a ha⟩
      · rw [List.append_nil]
        exact hkept.spaced
    · rcases List.mem_append.mp ha with ha | ha
      · exact (le_add_of_nonneg_right (by decide)).trans (hbefore a ha)
      · split at ha
        · exact (List.mem_singleton.mp ha).le
        · cases ha

theorem Sound.estimated_of_sample (h : t.Sound)
    (hleft : (t.tracker.addSample now (some progress)).2 = some left) :
    now ∈ (t.step (.addSample now (some progress))).estimated ∧
      ∃ oldest, (t.step (.addSample now (some progress))).tracker.m_samples.head? = some oldest ∧
        SyncProgressTracker.estimate oldest ⟨now, progress⟩ = some left := by
  have hwindow := (h.step_sample now progress).2
  unfold Windowed at hwindow
  rw [h.addSample] at hleft
  rw [h.step_eq] at hwindow ⊢
  simp only [hleft, Option.isSome_some, if_true] at hwindow ⊢
  refine ⟨List.mem_append_right _ (List.mem_singleton_self now), ?_⟩
  rcases SyncProgressTracker.publish_cases ((t.kept now).tracker.push ⟨now, progress⟩) now with
    hpublish | ⟨-, result, hpublish, hresult⟩
  · rw [hpublish] at hleft
    cases hleft
  · rw [hpublish] at hleft hwindow ⊢
    obtain ⟨oldest, newest, holdest, hnewest, hestimate⟩ := hresult left hleft
    have hlast := hwindow.getLast?_eq (by decide)
    rw [hnewest] at hlast
    cases hlast
    exact ⟨oldest, holdest, hestimate⟩

theorem Sound.step (h : t.Sound) (event : TrackerEvent) : (t.step event).Sound := by
  cases event with
  | reset => exact sound_empty
  | addSample now progress =>
    cases progress with
    | none => exact h
    | some progress => exact (h.step_sample now progress).1

theorem run_sound (events : List TrackerEvent) : (run events).Sound := by
  have hfoldl : ∀ t : Tracked, t.Sound → (events.foldl Tracked.step t).Sound := by
    induction events with
    | nil => exact fun t ht => ht
    | cons event events ih => exact fun t ht => ih _ (ht.step event)
  exact hfoldl _ sound_empty

end Tracked

end Sample

/-- After every sample the window is in order, within its bounds, and starts with the baseline where that fits.
Between resets the estimates are an interval apart. An estimate goes on at the progress of the window. -/
theorem window_and_estimate_of_run (events : List TrackerEvent) (now : Int) (progress : ℚ) :
    let t := Tracked.run (events ++ [.addSample now (some progress)])
    let result := ((Tracked.run events).tracker.addSample now (some progress)).2
    (t.tracker.m_samples.Pairwise fun a b => a.milliseconds ≤ b.milliseconds) ∧
    t.tracker.m_samples.length ≤ MAX_SAMPLES ∧
    (∀ before baseline after, t.since = before ++ baseline :: after →
      baseline.milliseconds ≤ now - WINDOW_MILLISECONDS →
      (∀ s ∈ after, now - WINDOW_MILLISECONDS < s.milliseconds) →
      (baseline :: after).length ≤ MAX_SAMPLES → t.tracker.m_samples = baseline :: after) ∧
    (t.estimated.Pairwise fun a b => a + PUBLISH_INTERVAL_MILLISECONDS ≤ b) ∧
    ∀ left, result = some left → now ∈ t.estimated ∧ ∃ oldest, t.tracker.m_samples.head? = some oldest ∧
      0 < progress - oldest.progress ∧
      left = min ⌊(1 - progress) * (now - oldest.milliseconds : Int) / (progress - oldest.progress)⌋ INT64_MAX ∧
      0 ≤ left ∧ left ≤ INT64_MAX := by
  have hrun : Tracked.run (events ++ [.addSample now (some progress)]) =
      (Tracked.run events).step (.addSample now (some progress)) := List.foldl_concat ..
  intro t result
  obtain ⟨hsound, hwindow⟩ := (Tracked.run_sound events).step_sample now progress
  rw [← hrun] at hsound hwindow
  refine ⟨hwindow.ordered.suffix hwindow.suffix, hwindow.fits, ?_, hsound.spaced, ?_⟩
  · intro before baseline after hsince hbaseline hafter hfits
    exact hwindow.eq_baseline ⟨before, hsince.symm⟩ hfits hbaseline hafter
  · intro left hleft
    obtain ⟨hmem, oldest, holdest, hestimate⟩ := (Tracked.run_sound events).estimated_of_sample hleft
    rw [← hrun] at hmem holdest
    obtain ⟨hgain, hvalue, hpos⟩ := SyncProgressTracker.estimate_eq_some hestimate
    refine ⟨hmem, oldest, holdest, hgain, hvalue, hpos, ?_⟩
    rw [hvalue]
    exact min_le_right ..

/-- A gain may be so small that the time left is cut to the largest number, and a reset allows an estimate at
once: the clock of the publications starts anew with it. -/
theorem cut_and_reset_estimates :
    (¬∀ (events : List TrackerEvent) (now : Int) (progress : ℚ) (left : Int),
      ((Tracked.run events).tracker.addSample now (some progress)).2 = some left →
        ∃ oldest, (Tracked.run (events ++ [.addSample now (some progress)])).tracker.m_samples.head? = some oldest ∧
          left = ⌊(1 - progress) * (now - oldest.milliseconds : Int) / (progress - oldest.progress)⌋) ∧
    ¬∀ (events more : List TrackerEvent) (now now' : Int) (progress progress' : ℚ),
      ((Tracked.run events).tracker.addSample now (some progress)).2.isSome →
        ((Tracked.run (events ++ .addSample now (some progress) :: more)).tracker.addSample now'
          (some progress')).2.isSome →
            now + PUBLISH_INTERVAL_MILLISECONDS ≤ now' ∨ now' + PUBLISH_INTERVAL_MILLISECONDS ≤ now := by
  constructor
  · intro h
    obtain ⟨oldest, holdest, hleft⟩ := h [.addSample 0 (some 0)] 1000 (1 / 10 ^ 20) INT64_MAX
      (by decide +kernel)
    cases holdest
    exact absurd hleft (by decide +kernel)
  · intro h
    have hnear := h [.addSample 0 (some 0)] [.addSample 999 (some (2 / 10))] 1000 1999 (1 / 10) (3 / 10)
      (by decide +kernel) (by decide +kernel)
    exact absurd hnear (by decide)

end GuiQml.ChainSync
