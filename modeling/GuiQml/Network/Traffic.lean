import GuiQml.Lib.MovingAverage
import Mathlib.Algebra.Order.Field.Rat
import Mathlib.Data.Rat.Cast.Defs

/-!
# Network traffic

`NetworkTrafficWorker` of `networktraffictower.cpp`: the rates sampled from the totals of the node and the
moving averages that the page shows of them. Rates and averages are rational numbers, so the sums are exact.
-/

namespace GuiQml.Traffic

def MAX_SAMPLES : Nat := 86400

def DEFAULT_FILTER_WINDOW_SIZE : Nat := 30

def nonNegativeTotal (total : Int) : Nat := if 0 < total then total.toNat else 0

def rateDelta (current previous : Nat) : ℚ := if previous ≤ current then ((current - previous : Nat) : ℚ) else 0

/-! ## Averages -/

section Averages

variable (filter_window_size : Nat) (rates : List ℚ)

/-- The sum of the first rates, in a loop. -/
def sumFirst (count : Nat) : ℚ := (List.range count).foldl (fun sum i => sum + rates.getD i 0) 0

def currentMovingAverage : ℚ :=
  let count := min rates.length filter_window_size
  if count = 0 then 0 else sumFirst rates count / count

/-- One turn of the loop: what is smoothed so far and the sum of the window. -/
def smoothStep (window_size : Nat) (s : List ℚ × ℚ) (i : Nat) : List ℚ × ℚ :=
  let (smoothed, window_sum) := s
  let sample_count := min window_size (rates.length - i)
  let smoothed := smoothed ++ [window_sum / sample_count]
  let window_sum := window_sum - rates.getD i 0
  let incoming_index := i + window_size
  (smoothed, if incoming_index < rates.length then window_sum + rates.getD incoming_index 0 else window_sum)

def calculateSmoothedHistory : List ℚ :=
  if rates.isEmpty then []
  else
    let window_size := min rates.length filter_window_size
    ((List.range rates.length).foldl (smoothStep rates window_size) ([], sumFirst rates window_size)).1

def calculateMaxRate (smoothed_rates : List ℚ) : ℚ :=
  let lookback := min smoothed_rates.length (filter_window_size * 10)
  (List.range lookback).foldl (fun max_rate i => max max_rate (smoothed_rates.getD i 0)) 0

def visibleHistory (smoothed_rates : List ℚ) : List ℚ :=
  let sample_count := min smoothed_rates.length (filter_window_size * 10)
  (List.range sample_count).map fun i => smoothed_rates.getD i 0

end Averages

/-- `pop_back` while there are more items than that. -/
def popBackTo (count : Nat) (rates : List ℚ) : List ℚ := rates.take count

/-- The history of one direction, newest first. -/
structure History where
  rate_list : List ℚ := []
  smoothed_rate_list : List ℚ := []
  max_rate_bps : ℚ := 0

namespace History

variable (filter_window_size : Nat) (h : History)

def ensureSmoothed : History :=
  let smoothed := calculateSmoothedHistory filter_window_size h.rate_list
  { h with smoothed_rate_list := smoothed, max_rate_bps := calculateMaxRate filter_window_size smoothed }

def appendSmoothed : History :=
  let smoothed := popBackTo h.rate_list.length
    (currentMovingAverage filter_window_size h.rate_list :: h.smoothed_rate_list)
  { h with smoothed_rate_list := smoothed, max_rate_bps := calculateMaxRate filter_window_size smoothed }

def pushRate (rate : ℚ) : History := { h with rate_list := popBackTo MAX_SAMPLES (rate :: h.rate_list) }

end History

/-! ## The worker -/

structure TrafficSnapshot where
  generation : Nat
  total_bytes_received : Nat
  total_bytes_sent : Nat
  max_received_rate_bps : ℚ
  max_sent_rate_bps : ℚ
  received_rate_list : List ℚ
  sent_rate_list : List ℚ

structure Worker where
  m_active : Bool := false
  m_has_baseline : Bool := false
  m_smoothed_history_valid : Bool := false
  m_generation : Nat := 0
  m_previous_total_bytes_received : Nat := 0
  m_previous_total_bytes_sent : Nat := 0
  m_total_bytes_received : Nat := 0
  m_total_bytes_sent : Nat := 0
  m_filter_window_size : Nat := DEFAULT_FILTER_WINDOW_SIZE
  received : History := {}
  sent : History := {}

namespace Worker

variable (w : Worker)

def ensureSmoothedHistory : Worker :=
  if w.m_smoothed_history_valid then w
  else
    { w with
      received := w.received.ensureSmoothed w.m_filter_window_size
      sent := w.sent.ensureSmoothed w.m_filter_window_size
      m_smoothed_history_valid := true }

def appendSmoothedSample : Worker :=
  { w with
    received := w.received.appendSmoothed w.m_filter_window_size
    sent := w.sent.appendSmoothed w.m_filter_window_size }

/-- Nothing is published while the page is not shown. -/
def publishSnapshot : Option TrafficSnapshot :=
  if !w.m_active then none
  else some
    { generation := w.m_generation
      total_bytes_received := w.m_total_bytes_received
      total_bytes_sent := w.m_total_bytes_sent
      max_received_rate_bps := w.received.max_rate_bps
      max_sent_rate_bps := w.sent.max_rate_bps
      received_rate_list := visibleHistory w.m_filter_window_size w.received.smoothed_rate_list
      sent_rate_list := visibleHistory w.m_filter_window_size w.sent.smoothed_rate_list }

def setActive (active : Bool) (generation : Nat) : Worker × Option TrafficSnapshot :=
  let w := { w with m_active := active, m_generation := generation }
  if !w.m_active then ({ w with m_smoothed_history_valid := false }, none)
  else
    let w := w.ensureSmoothedHistory
    (w, w.publishSnapshot)

def setFilterWindowSize (window_size : Int) : Worker × Option TrafficSnapshot :=
  let clamped_size := (max 1 (min window_size MAX_SAMPLES)).toNat
  if w.m_filter_window_size = clamped_size then (w, none)
  else
    let w := { w with m_filter_window_size := clamped_size, m_smoothed_history_valid := false }
    if w.m_active then
      let w := w.ensureSmoothedHistory
      (w, w.publishSnapshot)
    else (w, none)

def setTotals (total_received total_sent : Nat) : Worker :=
  { w with
    m_previous_total_bytes_received := total_received
    m_previous_total_bytes_sent := total_sent
    m_total_bytes_received := total_received
    m_total_bytes_sent := total_sent }

/-- The rates since the last sample go in front, and the oldest ones are forgotten. -/
def pushRates (total_received total_sent : Nat) : Worker :=
  { w with
    received := w.received.pushRate (rateDelta total_received w.m_previous_total_bytes_received)
    sent := w.sent.pushRate (rateDelta total_sent w.m_previous_total_bytes_sent) }

/-- A sample of the node's totals. The first one only sets the totals that later rates are taken from. -/
def sample (totalBytesRecv totalBytesSent : Int) : Worker × Option TrafficSnapshot :=
  let total_received := nonNegativeTotal totalBytesRecv
  let total_sent := nonNegativeTotal totalBytesSent
  if !w.m_has_baseline then
    let w := { w with m_has_baseline := true }.setTotals total_received total_sent
    (w, w.publishSnapshot)
  else
    let w := (w.pushRates total_received total_sent).setTotals total_received total_sent
    if !w.m_active then ({ w with m_smoothed_history_valid := false }, none)
    else
      let w := if w.m_smoothed_history_valid then w.appendSmoothedSample else w.ensureSmoothedHistory
      (w, w.publishSnapshot)

end Worker

/-! ## Runs -/

inductive Op
  | sample (totalBytesRecv totalBytesSent : Int)
  | setActive (active : Bool) (generation : Nat)
  | setFilterWindowSize (window_size : Int)

def Worker.step (w : Worker) : Op → Worker × Option TrafficSnapshot
  | .sample totalBytesRecv totalBytesSent => w.sample totalBytesRecv totalBytesSent
  | .setActive active generation => w.setActive active generation
  | .setFilterWindowSize window_size => w.setFilterWindowSize window_size

/-- The worker after a run. -/
def Worker.run (w : Worker) (ops : List Op) : Worker := ops.foldl (fun w op => (w.step op).1) w

/-- The snapshots of a run, each with the worker as it was published. -/
def Worker.published (w : Worker) : List Op → List (Worker × TrafficSnapshot)
  | [] => []
  | op :: ops =>
    ((w.step op).2.map fun snapshot => ((w.step op).1, snapshot)).toList ++ (w.step op).1.published ops

end GuiQml.Traffic
