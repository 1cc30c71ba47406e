import GuiQml.Network.Traffic
import Mathlib.Algebra.Order.Ring.Rat
import Mathlib.Order.Lattice

/-!
# The averages that are shown

The full pass computes the averages of the rates, and the fast one keeps them where nothing is forgotten.
Once the oldest rates are, averages that reached them stay as they were. A run shows the averages of the
retained rates exactly where each rate that is forgotten is the mean of those it was averaged with.
-/

namespace GuiQml.Traffic

open MovingAverage

/-! ## Loops -/

section Loops

variable {window : Nat} {rates : List ℚ}

theorem sumFirst_eq {count : Nat} (h : count ≤ rates.length) : sumFirst rates count = (rates.take count).sum := by
  unfold sumFirst
  induction count with
  | zero => rfl
  | succ count ih =>
    rw [List.range_succ, List.foldl_append, ih (by omega), List.take_add_one, List.sum_append]
    simp [List.getD_eq_getElem?_getD, List.getElem?_eq_getElem (Nat.lt_of_succ_le h)]

theorem currentMovingAverage_eq : currentMovingAverage window rates = average window rates 0 := by
  have hcount : min rates.length window = (rates.take window).length := by
    rw [List.length_take, Nat.min_comm]
  unfold currentMovingAverage average mean
  rw [List.drop_zero, hcount]
  dsimp only
  split
  · rename_i hzero
    rw [List.length_eq_zero_iff.mp hzero]
    simp
  · rw [sumFirst_eq (by simp), List.length_take, ← List.take_eq_take_min]

theorem foldl_smoothStep (hwindow : 0 < window) {k : Nat} (hk : k ≤ rates.length) (hle : window ≤ rates.length) :
    (List.range k).foldl (smoothStep rates window) ([], sumFirst rates window) =
      ((List.range k).map (average window rates), ((rates.drop k).take window).sum) := by
  induction k with
  | zero => simp [sumFirst_eq hle]
  | succ k ih =>
    have hlt : k < rates.length := hk
    have hcount : min window (rates.length - k) = ((rates.drop k).take window).length := by simp
    have hincoming : (if k + window < rates.length then
          ((rates.drop k).take window).sum - rates.getD k 0 + rates.getD (k + window) 0
        else ((rates.drop k).take window).sum - rates.getD k 0) =
        ((rates.drop (k + 1)).take window).sum := by
      rw [sum_window_succ hwindow hlt]
      split
      · simp [List.getD_eq_getElem?_getD, hlt]
      · rename_i hend
        simp [List.getD_eq_getElem?_getD, hlt, List.getElem?_eq_none (Nat.le_of_not_lt hend)]
    rw [List.range_succ, List.foldl_append, ih (by omega)]
    simp only [List.foldl_cons, List.foldl_nil, smoothStep, List.map_append, List.map_cons, List.map_nil, hincoming]
    rw [hcount]
    rfl

theorem calculateSmoothedHistory_eq (hwindow : 0 < window) :
    calculateSmoothedHistory window rates = averages window rates := by
  unfold calculateSmoothedHistory
  split
  · rename_i hempty
    rw [List.isEmpty_iff.mp hempty]
    rfl
  · rename_i hempty
    have hpos : 0 < rates.length := by
      rw [List.length_pos_iff]
      simpa using hempty
    dsimp only
    rw [foldl_smoothStep (by omega) le_rfl (Nat.min_le_left _ _)]
    exact List.map_congr_left fun i _ => average_min_length

variable {smoothed : List ℚ}

theorem range_map_getD {count : Nat} (h : count ≤ smoothed.length) :
    (List.range count).map (fun i => smoothed.getD i 0) = smoothed.take count := by
  induction count with
  | zero => rfl
  | succ count ih =>
    rw [List.range_succ, List.map_append, ih (by omega), List.take_add_one]
    simp [List.getD_eq_getElem?_getD, List.getElem?_eq_getElem (Nat.lt_of_succ_le h)]

theorem visibleHistory_eq : visibleHistory window smoothed = smoothed.take (window * 10) := by
  rw [visibleHistory, range_map_getD (Nat.min_le_left _ _), Nat.min_comm, ← List.take_eq_take_min]

theorem calculateMaxRate_eq :
    calculateMaxRate window smoothed = (visibleHistory window smoothed).foldl max 0 := by
  simp only [visibleHistory, List.foldl_map, calculateMaxRate]

theorem foldl_max_spec (xs : List ℚ) (b : ℚ) :
    b ≤ xs.foldl max b ∧ (∀ x ∈ xs, x ≤ xs.foldl max b) ∧ (xs.foldl max b = b ∨ xs.foldl max b ∈ xs) := by
  induction xs generalizing b with
  | nil => simp
  | cons x xs ih =>
    obtain ⟨hle, hall, hmem⟩ := ih (max b x)
    refine ⟨(le_max_left b x).trans hle, ?_, ?_⟩
    · intro y hy
      rcases List.mem_cons.mp hy with rfl | hy
      · exact (le_max_right b y).trans hle
      · exact hall y hy
    · rcases hmem with hmem | hmem
      · rcases max_choice b x with hmax | hmax
        · exact .inl (hmem.trans hmax)
        · exact .inr (by rw [List.foldl_cons, hmem, hmax]; simp)
      · exact .inr (by simp [hmem])

end Loops

/-! ## One direction -/

/-- What is shown of the rates of one direction: their averages, and the largest of these. -/
structure Shown (window : Nat) (rates shown : List ℚ) (max_rate : ℚ) : Prop where
  length : shown.length = min (10 * window) rates.length
  average : ∀ i < shown.length, shown[i]? = some (average window rates i)
  all_le : ∀ x ∈ shown, x ≤ max_rate
  largest : max_rate ∈ shown ∨ shown = [] ∧ max_rate = 0

namespace History

/-- What holds of a history at any time. -/
structure Sound (window : Nat) (valid : Bool) (h : History) : Prop where
  retained : h.rate_list.length ≤ MAX_SAMPLES
  nonneg : ∀ x ∈ h.rate_list, 0 ≤ x
  length : valid = true → h.smoothed_rate_list.length = h.rate_list.length
  max_rate : valid = true → h.max_rate_bps = calculateMaxRate window h.smoothed_rate_list

/-- The averages that can be seen are those of the rates. -/
def Agrees (window : Nat) (h : History) : Prop :=
  Averaged window (10 * window) h.rate_list h.smoothed_rate_list

/-- No rate is forgotten, or the one that is was the mean of what it was averaged with. -/
def KeepsAverages (window : Nat) (h : History) : Prop :=
  h.rate_list.length = MAX_SAMPLES → LastIsMean window (10 * window) h.rate_list

variable {window window' : Nat} {valid : Bool} {h : History}

@[simp] theorem smoothed_pushRate {rate : ℚ} : (h.pushRate rate).smoothed_rate_list = h.smoothed_rate_list := rfl

theorem sound_of_invalid (hretained : h.rate_list.length ≤ MAX_SAMPLES) (hnonneg : ∀ x ∈ h.rate_list, 0 ≤ x) :
    h.Sound window false := ⟨hretained, hnonneg, by simp, by simp⟩

theorem Sound.mono (hs : h.Sound window valid) : h.Sound window' false :=
  sound_of_invalid hs.retained hs.nonneg

theorem Sound.ensureSmoothed (hs : h.Sound window' valid) (hwindow : 0 < window) :
    (h.ensureSmoothed window).Sound window true := by
  refine ⟨hs.retained, hs.nonneg, fun _ => ?_, fun _ => rfl⟩
  simp [History.ensureSmoothed, calculateSmoothedHistory_eq hwindow]

theorem agrees_ensureSmoothed (hwindow : 0 < window) : (h.ensureSmoothed window).Agrees window := by
  simp only [Agrees, History.ensureSmoothed, calculateSmoothedHistory_eq hwindow]
  exact averaged_averages

theorem Sound.shown_iff (hs : h.Sound window true) :
    Shown window h.rate_list (visibleHistory window h.smoothed_rate_list) h.max_rate_bps ↔ h.Agrees window := by
  have hvisible : visibleHistory window h.smoothed_rate_list = h.smoothed_rate_list.take (10 * window) := by
    rw [visibleHistory_eq, Nat.mul_comm]
  have hlength := hs.length rfl
  constructor
  · intro hshown
    refine ⟨hlength, fun i hi hrate => ?_⟩
    have hin : i < (visibleHistory window h.smoothed_rate_list).length := by
      rw [hshown.length]
      omega
    have haverage := hshown.average i hin
    rwa [hvisible, List.getElem?_take_of_lt hi] at haverage
  · intro hagrees
    obtain ⟨hpos, hle, hmem⟩ := foldl_max_spec (visibleHistory window h.smoothed_rate_list) 0
    rw [← calculateMaxRate_eq, ← hs.max_rate rfl] at hpos hle hmem
    have haverage : ∀ i < (visibleHistory window h.smoothed_rate_list).length,
        (visibleHistory window h.smoothed_rate_list)[i]? = some (MovingAverage.average window h.rate_list i) := by
      intro i hi
      rw [hvisible] at hi ⊢
      rw [List.length_take] at hi
      rw [List.getElem?_take_of_lt (by omega)]
      exact hagrees.agrees i (by omega) (by omega)
    refine ⟨by rw [hvisible, List.length_take, hlength], haverage, hle, ?_⟩
    rcases hmem with hzero | hmem
    · cases hcase : visibleHistory window h.smoothed_rate_list with
      | nil => exact .inr ⟨rfl, hzero⟩
      | cons x rest =>
        -- All averages are at least zero, so a largest one of zero is the first.
        have hfirst := haverage 0 (by simp [hcase])
        rw [hcase, List.getElem?_cons_zero, Option.some_inj] at hfirst
        have hx : x ≤ h.max_rate_bps := hle x (by simp [hcase])
        have hnonneg : 0 ≤ x := hfirst ▸ average_nonneg hs.nonneg
        have hsame : h.max_rate_bps = x := le_antisymm (hzero ▸ hnonneg) hx
        exact .inl (by simp [hsame])
    · exact .inl hmem

/-! ### One more rate -/

theorem Sound.pushRate {rate : ℚ} (hs : h.Sound window valid) (hrate : 0 ≤ rate) :
    (h.pushRate rate).Sound window' false := by
  apply sound_of_invalid
  · simp [History.pushRate, popBackTo]
  · intro x hx
    rcases List.mem_cons.mp (List.mem_of_mem_take hx) with rfl | hx
    · exact hrate
    · exact hs.nonneg x hx

theorem Sound.appendSmoothed {rate : ℚ} (hs : h.Sound window true) (hrate : 0 ≤ rate) :
    ((h.pushRate rate).appendSmoothed window).Sound window true := by
  have hpushed : (h.pushRate rate).Sound window false := hs.pushRate hrate
  refine ⟨hpushed.retained, hpushed.nonneg, fun _ => ?_, fun _ => rfl⟩
  have hlength := hs.length rfl
  simp [History.appendSmoothed, History.pushRate, popBackTo, hlength]

/-- The fast pass agrees with the full one exactly where the averages are kept. -/
theorem Agrees.appendSmoothed_iff {rate : ℚ} (hs : h.Sound window true) (hagrees : h.Agrees window) :
    ((h.pushRate rate).appendSmoothed window).Agrees window ↔ h.KeepsAverages window := by
  have hlength := hs.length rfl
  rcases Nat.lt_or_eq_of_le hs.retained with hroom | hfull
  · have hrates : (h.pushRate rate).rate_list = rate :: h.rate_list :=
      List.take_of_length_le (by rw [List.length_cons]; omega)
    refine iff_of_true ?_ fun hfull => absurd hfull (by omega)
    simp only [Agrees, History.appendSmoothed, hrates, popBackTo, currentMovingAverage_eq, smoothed_pushRate]
    rw [List.take_of_length_le (by simp [hlength])]
    exact hagrees.cons
  · rcases List.eq_nil_or_concat' h.rate_list with hnil | ⟨rest, oldest, hrest⟩
    · rw [hnil] at hfull
      cases hfull
    rcases List.eq_nil_or_concat' h.smoothed_rate_list with hnil | ⟨averaged, last, hsmoothed⟩
    · rw [hnil, hfull] at hlength
      cases hlength
    have hrates : (h.pushRate rate).rate_list = rate :: rest := by
      have hcount : MAX_SAMPLES = (rate :: rest).length := by
        rw [← hfull, hrest]
        simp
      rw [History.pushRate, popBackTo, hcount, hrest, ← List.cons_append, List.take_left]
    have haveraged : averaged.length = rest.length := by
      simpa [hrest, hsmoothed] using hlength
    have hkeeps : h.KeepsAverages window ↔ LastIsMean window (10 * window) (rest ++ [oldest]) := by
      rw [KeepsAverages, hrest]
      exact forall_prop_of_true (hrest ▸ hfull)
    rw [hkeeps]
    unfold Agrees at hagrees
    rw [hrest, hsmoothed] at hagrees
    simp only [Agrees, History.appendSmoothed, hrates, popBackTo, currentMovingAverage_eq, smoothed_pushRate,
      hsmoothed]
    rw [List.length_cons, ← haveraged, List.take_succ_cons, List.take_left]
    exact hagrees.cons_concat

end History

/-! ## The worker -/

namespace Worker

/-- What holds of the worker at any time. -/
structure Sound (w : Worker) : Prop where
  window_pos : 0 < w.m_filter_window_size
  valid_eq : w.m_smoothed_history_valid = w.m_active
  received : w.received.Sound w.m_filter_window_size w.m_smoothed_history_valid
  sent : w.sent.Sound w.m_filter_window_size w.m_smoothed_history_valid

/-- While the page is shown, the averages that can be seen are those of the rates. -/
def Agrees (w : Worker) : Prop :=
  w.m_active = true → w.received.Agrees w.m_filter_window_size ∧ w.sent.Agrees w.m_filter_window_size

/-- The step forgets no rate while the page is shown, or only one in each direction that was the mean of what
it was averaged with. -/
def KeepsAverages (w : Worker) : Op → Prop
  | .sample _ _ => w.m_active = true → w.m_has_baseline = true →
      w.received.KeepsAverages w.m_filter_window_size ∧ w.sent.KeepsAverages w.m_filter_window_size
  | .setActive _ _ => True
  | .setFilterWindowSize _ => True

/-- Each step of a run keeps the averages. -/
def KeepsAveragesAlong (w : Worker) : List Op → Prop
  | [] => True
  | op :: ops => w.KeepsAverages op ∧ (w.step op).1.KeepsAveragesAlong ops

/-- A snapshot shows the averages of the rates that the worker retains. -/
def ShowsAverages (w : Worker) (snapshot : TrafficSnapshot) : Prop :=
  Shown w.m_filter_window_size w.received.rate_list snapshot.received_rate_list snapshot.max_received_rate_bps ∧
    Shown w.m_filter_window_size w.sent.rate_list snapshot.sent_rate_list snapshot.max_sent_rate_bps

variable {w : Worker}

theorem sound_initial : ({} : Worker).Sound where
  window_pos := by decide
  valid_eq := rfl
  received := History.sound_of_invalid (by decide) (by simp)
  sent := History.sound_of_invalid (by decide) (by simp)

theorem agrees_initial : ({} : Worker).Agrees := fun hactive => by cases hactive

theorem agrees_of_inactive (h : w.m_active = false) : w.Agrees := fun hactive => by simp [h] at hactive

theorem Sound.publishSnapshot_iff (hs : w.Sound) {snapshot : TrafficSnapshot}
    (h : w.publishSnapshot = some snapshot) : w.ShowsAverages snapshot ↔ w.Agrees := by
  unfold publishSnapshot at h
  split at h
  · cases h
  rename_i hactive
  rw [Bool.not_eq_true', Bool.not_eq_false] at hactive
  obtain rfl := Option.some.inj h
  have hvalid : w.m_smoothed_history_valid = true := hs.valid_eq.trans hactive
  have hreceived := hs.received
  have hsent := hs.sent
  rw [hvalid] at hreceived hsent
  rw [Agrees, forall_prop_of_true hactive, ← hreceived.shown_iff, ← hsent.shown_iff]
  rfl

/-! ### One step -/

/-- The full pass makes the averages right, whatever they were. -/
theorem ensureSmoothedHistory_of_invalid (hwindow : 0 < w.m_filter_window_size)
    (hvalid : w.m_smoothed_history_valid = false) (hactive : w.m_active = true)
    (hreceived : w.received.Sound w.m_filter_window_size false)
    (hsent : w.sent.Sound w.m_filter_window_size false) :
    w.ensureSmoothedHistory.Sound ∧ w.ensureSmoothedHistory.Agrees := by
  simp only [ensureSmoothedHistory, hvalid, Bool.false_eq_true, if_false]
  exact ⟨⟨hwindow, hactive.symm, hreceived.ensureSmoothed hwindow, hsent.ensureSmoothed hwindow⟩,
    fun _ => ⟨History.agrees_ensureSmoothed hwindow, History.agrees_ensureSmoothed hwindow⟩⟩

theorem ensureSmoothedHistory_of_valid (hvalid : w.m_smoothed_history_valid = true) :
    w.ensureSmoothedHistory = w := if_pos hvalid

/-- A step leaves the worker sound, and the averages right exactly where it keeps them. -/
def StepSpec (w : Worker) (op : Op) : Prop :=
  (w.step op).1.Sound ∧ ((w.step op).1.Agrees ↔ w.KeepsAverages op)

theorem Sound.setActive (hs : w.Sound) (hagrees : w.Agrees) (active : Bool) (generation : Nat) :
    StepSpec w (.setActive active generation) := by
  cases active with
  | false =>
    exact ⟨⟨hs.window_pos, rfl, hs.received.mono, hs.sent.mono⟩, iff_of_true (agrees_of_inactive rfl) trivial⟩
  | true =>
    cases hvalid : w.m_smoothed_history_valid with
    | false =>
      obtain ⟨hsound, hnew⟩ := ensureSmoothedHistory_of_invalid
        (w := { w with m_active := true, m_generation := generation }) hs.window_pos hvalid rfl
        hs.received.mono hs.sent.mono
      exact ⟨hsound, iff_of_true hnew trivial⟩
    | true =>
      have hactive : w.m_active = true := hs.valid_eq.symm.trans hvalid
      have hstep : (w.step (.setActive true generation)).1 = { w with m_active := true, m_generation := generation } :=
        ensureSmoothedHistory_of_valid hvalid
      rw [StepSpec, hstep]
      exact ⟨⟨hs.window_pos, hvalid, hs.received, hs.sent⟩, iff_of_true (fun _ => hagrees hactive) trivial⟩

theorem Sound.setFilterWindowSize (hs : w.Sound) (hagrees : w.Agrees) (window_size : Int) :
    StepSpec w (.setFilterWindowSize window_size) := by
  have hclamped : 0 < (max 1 (min window_size MAX_SAMPLES)).toNat := by omega
  unfold StepSpec
  simp only [step, Worker.setFilterWindowSize]
  split
  · exact ⟨hs, iff_of_true hagrees trivial⟩
  split
  · rename_i hactive
    obtain ⟨hsound, hnew⟩ := ensureSmoothedHistory_of_invalid
      (w := { w with
        m_filter_window_size := (max 1 (min window_size MAX_SAMPLES)).toNat
        m_smoothed_history_valid := false }) hclamped rfl hactive hs.received.mono hs.sent.mono
    exact ⟨hsound, iff_of_true hnew trivial⟩
  · rename_i hinactive
    have hinactive : w.m_active = false := Bool.eq_false_iff.mpr hinactive
    exact ⟨⟨hclamped, hinactive.symm, hs.received.mono, hs.sent.mono⟩,
      iff_of_true (agrees_of_inactive hinactive) trivial⟩

theorem rateDelta_nonneg (current previous : Nat) : 0 ≤ rateDelta current previous := by
  unfold rateDelta
  split
  · exact Nat.cast_nonneg _
  · exact le_rfl

/-- The worker once a sample has pushed its rates. -/
def sampled (w : Worker) (totalBytesRecv totalBytesSent : Int) : Worker :=
  (w.pushRates (nonNegativeTotal totalBytesRecv) (nonNegativeTotal totalBytesSent)).setTotals
    (nonNegativeTotal totalBytesRecv) (nonNegativeTotal totalBytesSent)

section Sample

variable (totalBytesRecv totalBytesSent : Int)

theorem sample_of_inactive (hbaseline : w.m_has_baseline = true) (hactive : w.m_active = false) :
    w.sample totalBytesRecv totalBytesSent =
      ({ w.sampled totalBytesRecv totalBytesSent with m_smoothed_history_valid := false }, none) := by
  have hsampled : (w.sampled totalBytesRecv totalBytesSent).m_active = false := hactive
  unfold Worker.sample
  simp only [hbaseline, Bool.not_true, Bool.false_eq_true, if_false]
  exact if_pos (by rw [Bool.not_eq_true']; exact hsampled)

theorem sample_of_active (hbaseline : w.m_has_baseline = true) (hactive : w.m_active = true)
    (hvalid : w.m_smoothed_history_valid = true) :
    w.sample totalBytesRecv totalBytesSent =
      ((w.sampled totalBytesRecv totalBytesSent).appendSmoothedSample,
        (w.sampled totalBytesRecv totalBytesSent).appendSmoothedSample.publishSnapshot) := by
  have hsampled : (w.sampled totalBytesRecv totalBytesSent).m_active = true := hactive
  have hsampled_valid : (w.sampled totalBytesRecv totalBytesSent).m_smoothed_history_valid = true := hvalid
  unfold Worker.sample
  simp only [hbaseline, Bool.not_true, Bool.false_eq_true, if_false]
  rw [if_neg (by rw [Bool.not_eq_true', Bool.not_eq_false]; exact hsampled)]
  exact congrArg (fun w : Worker => (w, w.publishSnapshot)) (if_pos hsampled_valid)

theorem Sound.sample (hs : w.Sound) (hagrees : w.Agrees) : StepSpec w (.sample totalBytesRecv totalBytesSent) := by
  have hreceived := rateDelta_nonneg (nonNegativeTotal totalBytesRecv) w.m_previous_total_bytes_received
  have hsent := rateDelta_nonneg (nonNegativeTotal totalBytesSent) w.m_previous_total_bytes_sent
  unfold StepSpec
  simp only [step]
  cases hbaseline : w.m_has_baseline with
  | false =>
    have hfirst : w.sample totalBytesRecv totalBytesSent =
        (({ w with m_has_baseline := true }.setTotals (nonNegativeTotal totalBytesRecv)
          (nonNegativeTotal totalBytesSent)), _) := if_pos (by simp [hbaseline])
    rw [hfirst]
    exact ⟨⟨hs.window_pos, hs.valid_eq, hs.received, hs.sent⟩,
      iff_of_true hagrees fun _ hmore => by simp [hbaseline] at hmore⟩
  | true =>
    cases hactive : w.m_active with
    | false =>
      rw [sample_of_inactive _ _ hbaseline hactive]
      exact ⟨⟨hs.window_pos, hactive.symm, hs.received.pushRate hreceived, hs.sent.pushRate hsent⟩,
        iff_of_true (agrees_of_inactive hactive) fun hmore => by simp [hactive] at hmore⟩
    | true =>
      have hvalid : w.m_smoothed_history_valid = true := hs.valid_eq.trans hactive
      have hsound_received := hs.received
      have hsound_sent := hs.sent
      rw [hvalid] at hsound_received hsound_sent
      obtain ⟨hagrees_received, hagrees_sent⟩ := hagrees hactive
      rw [sample_of_active _ _ hbaseline hactive hvalid]
      constructor
      · have hnew_received := hsound_received.appendSmoothed hreceived
        have hnew_sent := hsound_sent.appendSmoothed hsent
        rw [← hvalid] at hnew_received hnew_sent
        exact ⟨hs.window_pos, hs.valid_eq, hnew_received, hnew_sent⟩
      · have hkeeps : w.KeepsAverages (.sample totalBytesRecv totalBytesSent) ↔
            w.received.KeepsAverages w.m_filter_window_size ∧ w.sent.KeepsAverages w.m_filter_window_size := by
          simp [KeepsAverages, hactive, hbaseline]
        rw [hkeeps, ← hagrees_received.appendSmoothed_iff hsound_received,
          ← hagrees_sent.appendSmoothed_iff hsound_sent]
        exact forall_prop_of_true hactive

end Sample

theorem Sound.step (hs : w.Sound) (hagrees : w.Agrees) (op : Op) : StepSpec w op := by
  cases op with
  | sample totalBytesRecv totalBytesSent => exact hs.sample totalBytesRecv totalBytesSent hagrees
  | setActive active generation => exact hs.setActive hagrees active generation
  | setFilterWindowSize window_size => exact hs.setFilterWindowSize hagrees window_size

/-- A snapshot is of the worker that the step leaves. -/
def PublishesIt (r : Worker × Option TrafficSnapshot) : Prop :=
  ∀ snapshot, r.2 = some snapshot → r.1.publishSnapshot = some snapshot

theorem publishesIt_self : PublishesIt (w, w.publishSnapshot) := fun _ h => h

theorem publishesIt_none : PublishesIt (w, none) := fun _ h => by cases h

theorem publishesIt_step (op : Op) : PublishesIt (w.step op) := by
  cases op with
  | sample totalBytesRecv totalBytesSent =>
    unfold Worker.step Worker.sample
    dsimp only
    split
    · exact publishesIt_self
    split
    · exact publishesIt_none
    · exact publishesIt_self
  | setActive active generation =>
    unfold Worker.step Worker.setActive
    dsimp only
    split
    · exact publishesIt_none
    · exact publishesIt_self
  | setFilterWindowSize window_size =>
    unfold Worker.step Worker.setFilterWindowSize
    dsimp only
    split
    · exact publishesIt_none
    split
    · exact publishesIt_self
    · exact publishesIt_none

/-- Averages are spoiled in the open: the step publishes them. -/
theorem Sound.published_of_not_keepsAverages (hs : w.Sound) {op : Op} (h : ¬w.KeepsAverages op) :
    ∃ snapshot, (w.step op).2 = some snapshot := by
  cases op with
  | sample totalBytesRecv totalBytesSent =>
    have hactive : w.m_active = true := by
      by_contra hactive
      exact h fun hmore => absurd hmore hactive
    have hbaseline : w.m_has_baseline = true := by
      by_contra hbaseline
      exact h fun _ hmore => absurd hmore hbaseline
    have hvalid : w.m_smoothed_history_valid = true := hs.valid_eq.trans hactive
    rw [Worker.step, sample_of_active _ _ hbaseline hactive hvalid]
    exact ⟨_, if_neg (by rw [Bool.not_eq_true', Bool.not_eq_false]; exact hactive)⟩
  | setActive active generation => exact absurd trivial h
  | setFilterWindowSize window_size => exact absurd trivial h

/-! ### Runs -/

theorem Sound.published_iff (hs : w.Sound) (hagrees : w.Agrees) (ops : List Op) :
    (∀ p ∈ w.published ops, p.1.ShowsAverages p.2) ↔ w.KeepsAveragesAlong ops := by
  induction ops generalizing w with
  | nil => simp [published, KeepsAveragesAlong]
  | cons op ops ih =>
    obtain ⟨hsound, hnew⟩ := hs.step hagrees op
    simp only [published, List.mem_append, or_imp, forall_and, KeepsAveragesAlong]
    constructor
    · rintro ⟨hnow, hlater⟩
      have hkeeps : w.KeepsAverages op := by
        by_contra hspoils
        obtain ⟨snapshot, hsnapshot⟩ := hs.published_of_not_keepsAverages hspoils
        have hshows := hnow ((w.step op).1, snapshot) (by simp [hsnapshot])
        exact hspoils (hnew.mp ((hsound.publishSnapshot_iff (publishesIt_step op _ hsnapshot)).mp hshows))
      exact ⟨hkeeps, (ih hsound (hnew.mpr hkeeps)).mp hlater⟩
    · rintro ⟨hkeeps, halong⟩
      refine ⟨?_, (ih hsound (hnew.mpr hkeeps)).mpr halong⟩
      intro p hp
      obtain ⟨snapshot, hsnapshot, rfl⟩ : ∃ snapshot, (w.step op).2 = some snapshot ∧
          ((w.step op).1, snapshot) = p := by simpa using hp
      exact (hsound.publishSnapshot_iff (publishesIt_step op _ hsnapshot)).mpr (hnew.mpr hkeeps)

/-- The snapshots of a run show the averages of the retained rates exactly where each rate that is forgotten
while the page is shown is the mean of what it was averaged with in every window that can be seen. -/
theorem averages_shown_iff (ops : List Op) :
    (∀ p ∈ ({} : Worker).published ops, p.1.ShowsAverages p.2) ↔ ({} : Worker).KeepsAveragesAlong ops :=
  sound_initial.published_iff agrees_initial ops

/-! ### Short windows -/

/-- The largest window whose averages are seen only where they do not reach the oldest rate. -/
def SHORT_WINDOW_SIZE : Nat := 7854

theorem keepsAverages_of_short (h : w.m_filter_window_size ≤ SHORT_WINDOW_SIZE) (op : Op) : w.KeepsAverages op := by
  have hshort : 10 * w.m_filter_window_size + w.m_filter_window_size ≤ MAX_SAMPLES + 1 := by
    simp only [SHORT_WINDOW_SIZE, MAX_SAMPLES] at *
    omega
  cases op with
  | sample totalBytesRecv totalBytesSent =>
    exact fun _ _ => ⟨fun hfull => lastIsMean_of_short (hfull ▸ hshort),
      fun hfull => lastIsMean_of_short (hfull ▸ hshort)⟩
  | setActive active generation => trivial
  | setFilterWindowSize window_size => trivial

theorem ensureSmoothedHistory_window : w.ensureSmoothedHistory.m_filter_window_size = w.m_filter_window_size := by
  unfold ensureSmoothedHistory
  split <;> rfl

theorem sample_window (totalBytesRecv totalBytesSent : Int) :
    (w.sample totalBytesRecv totalBytesSent).1.m_filter_window_size = w.m_filter_window_size := by
  unfold Worker.sample
  dsimp only
  split
  · rfl
  split
  · rfl
  split
  · rfl
  · exact ensureSmoothedHistory_window

theorem step_window_le {limit : Nat} (h : w.m_filter_window_size ≤ limit) (hlimit : 0 < limit) (op : Op)
    (hop : ∀ window_size, op = .setFilterWindowSize window_size → window_size ≤ limit) :
    (w.step op).1.m_filter_window_size ≤ limit := by
  cases op with
  | sample totalBytesRecv totalBytesSent =>
    rw [Worker.step, sample_window]
    exact h
  | setActive active generation =>
    unfold Worker.step Worker.setActive
    dsimp only
    split
    · exact h
    · exact ensureSmoothedHistory_window.trans_le h
  | setFilterWindowSize window_size =>
    have hclamped : (max 1 (min window_size MAX_SAMPLES)).toNat ≤ limit := by
      have := hop window_size rfl
      omega
    unfold Worker.step Worker.setFilterWindowSize
    dsimp only
    split
    · exact h
    split
    · exact ensureSmoothedHistory_window.trans_le hclamped
    · exact hclamped

/-- Where only short windows are asked for, every snapshot shows the averages of the retained rates. -/
theorem keepsAveragesAlong_of_short (h : w.m_filter_window_size ≤ SHORT_WINDOW_SIZE) (ops : List Op)
    (hops : ∀ window_size, Op.setFilterWindowSize window_size ∈ ops → window_size ≤ SHORT_WINDOW_SIZE) :
    w.KeepsAveragesAlong ops := by
  induction ops generalizing w with
  | nil => trivial
  | cons op ops ih =>
    refine ⟨keepsAverages_of_short h op, ih ?_ fun window_size hmem => hops window_size (by simp [hmem])⟩
    exact step_window_le h (by decide) op fun window_size hop => hops window_size (by simp [hop])

/-! ### A run that shows a forgotten rate -/

/-- The page is shown with a long window, and one byte has been received. -/
def oneByte : List Op := [.setActive true 1, .setFilterWindowSize 8640, .sample 0 0, .sample 1 0]

/-- Nothing more is received until that rate has become the oldest one, and is forgotten. -/
def quietDay : List Op := oneByte ++ List.replicate 86400 (.sample 1 0)

theorem keepsAveragesAlong_append {ops : List Op} {op : Op} {later : List Op}
    (h : w.KeepsAveragesAlong (ops ++ op :: later)) : (w.run ops).KeepsAverages op := by
  induction ops generalizing w with
  | nil => exact h.1
  | cons first ops ih => exact ih h.2

/-- The worker while nothing is received. -/
structure Quiet (w : Worker) (rates : List ℚ) : Prop where
  active : w.m_active = true
  baseline : w.m_has_baseline = true
  valid : w.m_smoothed_history_valid = true
  window : w.m_filter_window_size = 8640
  total : w.m_previous_total_bytes_received = 1
  rates : w.received.rate_list = rates

theorem Quiet.sample {rates : List ℚ} (h : w.Quiet rates) (hroom : rates.length < MAX_SAMPLES) :
    (w.step (.sample 1 0)).1.Quiet (0 :: rates) := by
  have hpushed : (w.received.pushRate (rateDelta 1 w.m_previous_total_bytes_received)).rate_list = 0 :: rates := by
    have hnothing : rateDelta 1 1 = 0 := by simp [rateDelta]
    rw [h.total, hnothing, History.pushRate, popBackTo, h.rates]
    exact List.take_of_length_le hroom
  rw [Worker.step, sample_of_active _ _ h.baseline h.active h.valid]
  exact ⟨h.active, h.baseline, h.valid, h.window, rfl, hpushed⟩

theorem Quiet.run {rates : List ℚ} (h : w.Quiet rates) {k : Nat} (hroom : k + rates.length ≤ MAX_SAMPLES) :
    (w.run (List.replicate k (.sample 1 0))).Quiet (List.replicate k 0 ++ rates) := by
  induction k generalizing w rates with
  | zero => exact h
  | succ k ih =>
    have hnext := ih (h.sample (by omega)) (by rw [List.length_cons]; omega)
    rw [List.append_cons, ← List.replicate_succ'] at hnext
    exact hnext

theorem quiet_oneByte : (({} : Worker).run oneByte).Quiet [1] := by
  refine ⟨rfl, rfl, rfl, rfl, rfl, ?_⟩
  have hone : rateDelta 1 0 = 1 := by simp [rateDelta]
  exact congrArg (fun rate => [rate]) hone

theorem not_lastIsMean {k window shown : Nat} (hk : 0 < k) (hshown : k < shown) (hwindow : 1 < window) :
    ¬LastIsMean window shown (List.replicate k (0 : ℚ) ++ [1]) := by
  intro h
  have hmean := h (List.replicate k 0) 1 rfl (k - 1) (by simp; omega) (by omega) (by simp; omega)
  simp [mean, List.drop_replicate] at hmean

/-- At the end of the run the oldest average that is shown still counts the byte. -/
theorem not_averages_shown :
    ¬∀ ops, ∀ p ∈ ({} : Worker).published ops, p.1.ShowsAverages p.2 := by
  intro h
  have halong := (sound_initial.published_iff agrees_initial quietDay).mp (h quietDay)
  have hsplit : quietDay = (oneByte ++ List.replicate 86399 (.sample 1 0)) ++ .sample 1 0 :: [] := by
    rw [quietDay, List.append_assoc, ← List.replicate_succ']
  rw [hsplit] at halong
  have hkeeps := keepsAveragesAlong_append halong
  have hquiet : (({} : Worker).run (oneByte ++ List.replicate 86399 (.sample 1 0))).Quiet
      (List.replicate 86399 0 ++ [1]) := by
    rw [Worker.run, List.foldl_append]
    exact quiet_oneByte.run (by decide)
  have hfull := (hkeeps hquiet.active hquiet.baseline).1
  unfold History.KeepsAverages at hfull
  rw [hquiet.rates, hquiet.window] at hfull
  exact not_lastIsMean (by omega) (by omega) (by omega) (hfull (by
    rw [List.length_append, List.length_replicate]
    rfl))

end Worker

end GuiQml.Traffic
