import GuiQml.Executors.Model
import GuiQml.Lib.Journal
import Mathlib.Data.Finset.Card
import Mathlib.Data.List.Range

/-!
# What executors promise

The tasks of an executor carry the numbers from one on. Those that have begun are the first ones, and those
behind them wait in the queue of the worker. The callbacks of `shutdownAll` wait in one of two registries.
-/

namespace GuiQml.Executors

open Journal Reach

variable {E R : Type} {e : E} {J J' : List (Note E R)} {n : Note E R}

/-! ## The rules -/

/-- A completion may run: the executor is not stopped, its receiver lives, and no later one has run. -/
def Collects (e : E) (id : Nat) (older : List (Note E R)) : Prop :=
  .shutdown e ∉ older ∧ (∃ r, .accepted e id r ∈ older ∧ .destroyed r ∉ older) ∧
    ∀ later ≥ id, .done e later ∉ older ∧ .failed e later ∉ older

def Ended (e : E) (id : Nat) (older : List (Note E R)) : Prop :=
  .returned e id ∈ older ∨ .threw e id ∈ older

/-- What a note says of those before it. -/
def Sound : Note E R → List (Note E R) → Prop
  | .registered e, older => .registered e ∉ older
  | .accepted e id _, older => .shutdown e ∉ older ∧ ∀ earlier r, .accepted e earlier r ∈ older → earlier < id
  | .refused e, older => .shutdown e ∈ older
  | .ran e id, older => (∃ r, .accepted e id r ∈ older) ∧ .ran e id ∉ older ∧
      ∀ earlier r, .accepted e earlier r ∈ older → earlier < id → Ended e earlier older
  | .returned e id, older | .threw e id, older => .ran e id ∈ older ∧ ¬Ended e id older
  | .done e id, older => .returned e id ∈ older ∧ Collects e id older
  | .failed e id, older => .threw e id ∈ older ∧ Collects e id older
  | .drained e, older => .drained e ∉ older ∧ .shutdown e ∈ older ∧
      ∀ id r, .accepted e id r ∈ older → Ended e id older
  | .joinStarted joining, older => .joinStarted joining ∉ older
  | .notified _ r, older => .destroyed r ∉ older
  | .asked number _, older => ∀ r, .asked number r ∉ older
  | .queued number, older => .queued number ∉ older ∧
      (∃ r, .asked number r ∈ older ∧ .destroyed r ∉ older) ∧
      (∀ e, .registered e ∈ older → .unregistered e ∈ older) ∧
      ∀ joining, .joinStarted joining ∈ older → .joinEnded joining ∈ older
  | _, _ => True

/-! ## One executor -/

/-- The executor whose state a note tells of. -/
def Note.executor : Note E R → Option E
  | .registered e | .accepted e _ _ | .ran e _ | .returned e _ | .threw e _ | .done e _ | .failed e _
  | .shutdown e | .drained e => some e
  | _ => none

/-- The first `begun` tasks have begun, and the others wait. -/
structure ExecutorInv (e : E) (x : BackendExecutor R) (J : List (Note E R)) (begun : Nat) : Prop where
  begun_le : begun ≤ x.m_next_task_id
  queue : x.queue.filterMap WorkerEvent.task = List.range' (begun + 1) (x.m_next_task_id - begun)
  accepted_le : ∀ id r, .accepted e id r ∈ J → 0 < id ∧ id ≤ x.m_next_task_id
  accepted : ∀ id, 0 < id → id ≤ x.m_next_task_id → ∃ r, .accepted e id r ∈ J
  ran : ∀ id, .ran e id ∈ J ↔ 0 < id ∧ id ≤ begun
  current : ∀ id, x.current = some id → id = begun ∧ 0 < begun
  ended : ∀ id, Ended e id J ↔ (0 < id ∧ id ≤ begun) ∧ x.current ≠ some id
  shutdown : .shutdown e ∈ J ↔ x.m_stopping = true
  works : x.m_stopping = false → x.thread = .running ∧ .releaseAllTasks ∉ x.queue
  stops : x.m_stopping = true →
    (x.thread = .running ∧ ∃ queue, x.queue = queue ++ [.releaseAllTasks] ∧ .releaseAllTasks ∉ queue) ∨
      x.thread ≠ .running ∧ x.queue = [] ∧ x.current = none
  cleared : x.m_stopping = true → x.m_gui_completions = []
  kept : ∀ id task, (id, task) ∈ x.m_gui_completions → .accepted e id task.receiver ∈ J
  sorted : (x.completed.map Prod.fst).Pairwise (· < ·)
  returned : ∀ id, (id, Outcome.returned) ∈ x.completed → .returned e id ∈ J
  threw : ∀ id, (id, Outcome.threw) ∈ x.completed → .threw e id ∈ J
  collected : ∀ id, .done e id ∈ J ∨ .failed e id ∈ J → Ended e id J ∧ ∀ p ∈ x.completed, id < p.1
  drained : .drained e ∈ J → x.thread = .gone

namespace ExecutorInv

variable {x : BackendExecutor R} {begun : Nat}

theorem frame (h : ExecutorInv e x J begun) (hmem : ∀ n, n.executor = some e → (n ∈ J' ↔ n ∈ J)) :
    ExecutorInv e x J' begun := by
  have hended (id : Nat) : Ended e id J' ↔ Ended e id J :=
    or_congr (hmem (.returned e id) rfl) (hmem (.threw e id) rfl)
  refine ⟨h.begun_le, h.queue, fun id r hid => h.accepted_le id r ((hmem _ rfl).mp hid), fun id h0 hle => ?_,
    fun id => (hmem _ rfl).trans (h.ran id), h.current, fun id => (hended id).trans (h.ended id),
    (hmem _ rfl).trans h.shutdown, h.works, h.stops, h.cleared,
    fun id task htask => (hmem _ rfl).mpr (h.kept id task htask), h.sorted,
    fun id hid => (hmem _ rfl).mpr (h.returned id hid), fun id hid => (hmem _ rfl).mpr (h.threw id hid),
    fun id hid => ?_, fun hdrained => h.drained ((hmem _ rfl).mp hdrained)⟩
  · obtain ⟨r, hr⟩ := h.accepted id h0 hle
    exact ⟨r, (hmem _ rfl).mpr hr⟩
  · obtain ⟨hid, hlater⟩ := h.collected id (hid.imp (hmem _ rfl).mp (hmem _ rfl).mp)
    exact ⟨(hended id).mpr hid, hlater⟩

theorem note_other (h : ExecutorInv e x J begun) (hn : n.executor ≠ some e) :
    ExecutorInv e x (n :: J) begun := by
  refine h.frame fun m hm => ⟨fun hmem => (List.mem_cons.mp hmem).resolve_left ?_, List.mem_cons_of_mem _⟩
  rintro rfl
  exact hn hm

theorem construct (hnone : ∀ n ∈ J, n.executor ≠ some e) :
    ExecutorInv e ({} : BackendExecutor R) (.registered e :: J) 0 := by
  have habsent {m : Note E R} (hmem : m ∈ Note.registered e :: J) (hm : m.executor = some e)
      (hne : m ≠ .registered e) : False :=
    hnone m ((List.mem_cons.mp hmem).resolve_left hne) hm
  have hended (id : Nat) : ¬Ended e id (.registered e :: J) := by
    rintro (h | h)
    · exact habsent h rfl nofun
    · exact habsent h rfl nofun
  refine ⟨Nat.le_refl 0, rfl, fun id r h => ?_, fun id h0 hle => ?_, fun id => ?_, nofun, fun id => ?_, ?_,
    fun _ => ⟨rfl, List.not_mem_nil⟩, nofun, nofun, nofun, List.Pairwise.nil, nofun, nofun, fun id h => ?_,
    fun h => ?_⟩
  · exact (habsent h rfl nofun).elim
  · exact absurd hle (Nat.not_le.mpr h0)
  · exact iff_of_false (fun h => habsent h rfl nofun) (by omega)
  · exact iff_of_false (hended id) (by omega)
  · exact iff_of_false (fun h => habsent h rfl nofun) (by simp)
  · rcases h with h | h
    · exact (habsent h rfl nofun).elim
    · exact (habsent h rfl nofun).elim
  · exact (habsent h rfl nofun).elim

theorem with_unseen (h : ExecutorInv e x J begun) (alive m_drained : Bool) (m_retained_tasks returning : List Nat) :
    ExecutorInv e { x with alive, m_drained, m_retained_tasks, returning } J begun :=
  ⟨h.begun_le, h.queue, h.accepted_le, h.accepted, h.ran, h.current, h.ended, h.shutdown, h.works, h.stops,
    h.cleared, h.kept, h.sorted, h.returned, h.threw, h.collected, h.drained⟩

theorem submit (h : ExecutorInv e x J begun) (hworks : x.m_stopping = false) (task : Task R) :
    ExecutorInv e
      { x with
        m_next_task_id := x.m_next_task_id + 1
        m_gui_completions := x.m_gui_completions ++ [(x.m_next_task_id + 1, task)]
        queue := x.queue ++ [.runTask (x.m_next_task_id + 1)] }
      (.accepted e (x.m_next_task_id + 1) task.receiver :: J) begun ∧
    Sound (.accepted e (x.m_next_task_id + 1) task.receiver) J := by
  have hle := h.begun_le
  have hended (id : Nat) : Ended e id (.accepted e (x.m_next_task_id + 1) task.receiver :: J) ↔
      Ended e id J := by simp [Ended]
  obtain ⟨hrunning, hnone⟩ := h.works hworks
  refine ⟨⟨Nat.le_succ_of_le hle, ?_, fun id r hid => ?_, fun id h0 hid => ?_, fun id => ?_, h.current,
    fun id => (hended id).trans (h.ended id), ?_, fun _ => ⟨hrunning, ?_⟩, fun hstops => ?_, fun hstops => ?_,
    fun id other hid => ?_, h.sorted, fun id hid => ?_, fun id hid => ?_, fun id hid => ?_,
    fun hdrained => h.drained (by simpa using hdrained)⟩, ?_, fun earlier r hr => ?_⟩
  · rw [List.filterMap_append, h.queue, show x.m_next_task_id + 1 - begun = x.m_next_task_id - begun + 1 by omega,
      List.range'_1_concat, show begun + 1 + (x.m_next_task_id - begun) = x.m_next_task_id + 1 by omega]
    rfl
  · rcases List.mem_cons.mp hid with heq | hid
    · obtain ⟨-, rfl, -⟩ := Note.accepted.inj heq
      exact ⟨Nat.succ_pos _, Nat.le_refl _⟩
    · exact ⟨(h.accepted_le id r hid).1, Nat.le_succ_of_le (h.accepted_le id r hid).2⟩
  · rcases Nat.le_or_eq_of_le_succ hid with hid | rfl
    · obtain ⟨r, hr⟩ := h.accepted id h0 hid
      exact ⟨r, List.mem_cons_of_mem _ hr⟩
    · exact ⟨task.receiver, List.mem_cons_self⟩
  · simpa using h.ran id
  · simpa using h.shutdown
  · simpa using hnone
  · exact absurd (hworks.symm.trans hstops) (by decide)
  · exact absurd (hworks.symm.trans hstops) (by decide)
  · rcases List.mem_append.mp hid with hid | hid
    · exact List.mem_cons_of_mem _ (h.kept id other hid)
    · obtain ⟨rfl, rfl⟩ := Prod.mk.inj (List.mem_singleton.mp hid)
      exact List.mem_cons_self
  · exact List.mem_cons_of_mem _ (h.returned id hid)
  · exact List.mem_cons_of_mem _ (h.threw id hid)
  · obtain ⟨hid, hlater⟩ := h.collected id (by simpa using hid)
    exact ⟨(hended id).mpr hid, hlater⟩
  · exact fun hmem => absurd (hworks.symm.trans (h.shutdown.mp hmem)) (by decide)
  · exact Nat.lt_succ_of_le (h.accepted_le earlier r hr).2

theorem stop (h : ExecutorInv e x J begun) (hworks : x.m_stopping = false) :
    ExecutorInv e
      { x with
        m_stopping := true
        m_gui_completions := []
        queue := x.queue ++ [.releaseAllTasks] }
      (.shutdown e :: J) begun := by
  have hended (id : Nat) : Ended e id (.shutdown e :: J) ↔ Ended e id J := by simp [Ended]
  obtain ⟨hrunning, hnone⟩ := h.works hworks
  refine ⟨h.begun_le, ?_, fun id r hid => h.accepted_le id r (by simpa using hid), fun id h0 hid => ?_,
    fun id => ?_, h.current, fun id => (hended id).trans (h.ended id), iff_of_true List.mem_cons_self rfl,
    nofun, fun _ => .inl ⟨hrunning, x.queue, rfl, hnone⟩, fun _ => rfl, nofun, h.sorted,
    fun id hid => List.mem_cons_of_mem _ (h.returned id hid),
    fun id hid => List.mem_cons_of_mem _ (h.threw id hid), fun id hid => ?_,
    fun hdrained => h.drained (by simpa using hdrained)⟩
  · rw [List.filterMap_append, h.queue]
    exact List.append_nil _
  · obtain ⟨r, hr⟩ := h.accepted id h0 hid
    exact ⟨r, List.mem_cons_of_mem _ hr⟩
  · simpa using h.ran id
  · obtain ⟨hid, hlater⟩ := h.collected id (by simpa using hid)
    exact ⟨(hended id).mpr hid, hlater⟩

theorem drop (h : ExecutorInv e x J begun) {completed : List (Nat × Outcome)}
    (hsub : completed.Sublist x.completed) : ExecutorInv e { x with completed } J begun :=
  ⟨h.begun_le, h.queue, h.accepted_le, h.accepted, h.ran, h.current, h.ended, h.shutdown, h.works, h.stops,
    h.cleared, h.kept, h.sorted.sublist (hsub.map _), fun id hid => h.returned id (hsub.subset hid),
    fun id hid => h.threw id (hsub.subset hid),
    fun id hid => ⟨(h.collected id hid).1, fun p hp => (h.collected id hid).2 p (hsub.subset hp)⟩, h.drained⟩

theorem take (h : ExecutorInv e x J begun) {completions : List (Nat × Task R)}
    (hsub : completions.Sublist x.m_gui_completions) :
    ExecutorInv e { x with m_gui_completions := completions } J begun :=
  ⟨h.begun_le, h.queue, h.accepted_le, h.accepted, h.ran, h.current, h.ended, h.shutdown, h.works, h.stops,
    fun hstops => List.sublist_nil.mp (h.cleared hstops ▸ hsub),
    fun id task hid => h.kept id task (hsub.subset hid), h.sorted, h.returned, h.threw, h.collected, h.drained⟩

theorem collect (h : ExecutorInv e x J begun) {id : Nat} (hended : Ended e id J)
    (hlater : ∀ p ∈ x.completed, id < p.1) (hn : n = .done e id ∨ n = .failed e id) :
    ExecutorInv e x (n :: J) begun := by
  have hmem (m : Note E R) (hdone : ∀ id, m ≠ .done e id) (hfailed : ∀ id, m ≠ .failed e id) :
      m ∈ n :: J ↔ m ∈ J := by
    refine ⟨fun hmem => (List.mem_cons.mp hmem).resolve_left ?_, List.mem_cons_of_mem _⟩
    rintro rfl
    exact hn.elim (hdone id) (hfailed id)
  have hended' (other : Nat) : Ended e other (n :: J) ↔ Ended e other J :=
    or_congr (hmem (.returned e other) nofun nofun) (hmem (.threw e other) nofun nofun)
  refine ⟨h.begun_le, h.queue, fun other r hr => h.accepted_le other r ((hmem (.accepted e other r) nofun nofun).mp hr),
    fun other h0 hle => ?_, fun other => (hmem (.ran e other) nofun nofun).trans (h.ran other), h.current,
    fun other => (hended' other).trans (h.ended other), (hmem (.shutdown e) nofun nofun).trans h.shutdown,
    h.works, h.stops, h.cleared, fun other task htask => List.mem_cons_of_mem _ (h.kept other task htask), h.sorted,
    fun other hother => List.mem_cons_of_mem _ (h.returned other hother),
    fun other hother => List.mem_cons_of_mem _ (h.threw other hother), fun other hother => ?_,
    fun hdrained => h.drained ((hmem (.drained e) nofun nofun).mp hdrained)⟩
  · obtain ⟨r, hr⟩ := h.accepted other h0 hle
    exact ⟨r, List.mem_cons_of_mem _ hr⟩
  · by_cases heq : other = id
    · subst heq
      exact ⟨(hended' other).mpr hended, hlater⟩
    · have hold : .done e other ∈ J ∨ .failed e other ∈ J := by
        rcases hn with rfl | rfl
        all_goals simpa [heq] using hother
      exact ⟨(hended' other).mpr (h.collected other hold).1, (h.collected other hold).2⟩

theorem collects (h : ExecutorInv e x J begun) {id : Nat} {outcome : Outcome}
    {completed : List (Nat × Outcome)} (hcompleted : x.completed = (id, outcome) :: completed)
    {task : Task R} (htask : (id, task) ∈ x.m_gui_completions) (hlives : .destroyed task.receiver ∉ J) :
    Collects e id J := by
  refine ⟨fun hshutdown => ?_, ⟨task.receiver, h.kept id task htask, hlives⟩, fun later hlater => ?_⟩
  · rw [h.cleared (h.shutdown.mp hshutdown)] at htask
    cases htask
  · have hnot (hmem : .done e later ∈ J ∨ .failed e later ∈ J) : False := by
      have := (h.collected later hmem).2 _ (by rw [hcompleted]; exact List.mem_cons_self)
      exact absurd hlater (Nat.not_le.mpr this)
    exact ⟨fun hmem => hnot (.inl hmem), fun hmem => hnot (.inr hmem)⟩

/-- Once an event is taken from the queue, `releaseAllTasks` is still the last one. -/
theorem releases_last (h : ExecutorInv e x J begun) {event : WorkerEvent} {queue : List WorkerEvent}
    (hqueue : x.queue = event :: queue) (hrunning : x.thread = .running) (hstops : x.m_stopping = true)
    (hevent : event ≠ .releaseAllTasks) :
    ∃ front, queue = front ++ [.releaseAllTasks] ∧ .releaseAllTasks ∉ front := by
  rcases h.stops hstops with ⟨-, front, hfront, hnone⟩ | ⟨hnot, -⟩
  · rw [hqueue] at hfront
    cases front with
    | nil => exact absurd (List.cons.inj hfront).1 hevent
    | cons first front =>
      obtain ⟨rfl, rfl⟩ := List.cons.inj hfront
      exact ⟨front, rfl, fun hmem => hnone (List.mem_cons_of_mem _ hmem)⟩
  · exact absurd hrunning hnot

theorem run (h : ExecutorInv e x J begun) (hidle : x.current = none) {id : Nat} {queue : List WorkerEvent}
    (hqueue : x.queue = .runTask id :: queue) (hrunning : x.thread = .running) :
    ExecutorInv e { x with queue, current := some id } (.ran e id :: J) (begun + 1) ∧ Sound (.ran e id) J := by
  have hnumbers := h.queue
  rw [hqueue] at hnumbers
  change id :: queue.filterMap WorkerEvent.task = _ at hnumbers
  obtain ⟨left, hleft⟩ : ∃ left, x.m_next_task_id - begun = left + 1 := by
    refine Nat.exists_eq_succ_of_ne_zero fun hzero => ?_
    rw [hzero] at hnumbers
    cases hnumbers
  rw [hleft, List.range'_succ] at hnumbers
  obtain ⟨rfl, hrest⟩ := List.cons.inj hnumbers
  have hended (id : Nat) : Ended e id (.ran e (begun + 1) :: J) ↔ Ended e id J := by simp [Ended]
  have hbegun (id : Nat) : Ended e id J ↔ 0 < id ∧ id ≤ begun := by simp [h.ended id, hidle]
  have hlt : begun + 1 ≤ x.m_next_task_id := by omega
  refine ⟨⟨hlt, ?_, fun id r hid => h.accepted_le id r (by simpa using hid), fun id h0 hid => ?_,
    fun id => ?_, fun id hid => ?_, fun id => ?_, ?_, fun hworks => ?_, fun hstops => ?_, h.cleared,
    fun id task hid => List.mem_cons_of_mem _ (h.kept id task hid), h.sorted,
    fun id hid => List.mem_cons_of_mem _ (h.returned id hid),
    fun id hid => List.mem_cons_of_mem _ (h.threw id hid), fun id hid => ?_, fun hdrained => ?_⟩, ?_, ?_, ?_⟩
  · rw [hrest, show x.m_next_task_id - (begun + 1) = left by omega]
  · obtain ⟨r, hr⟩ := h.accepted id h0 hid
    exact ⟨r, List.mem_cons_of_mem _ hr⟩
  · rw [List.mem_cons, Note.ran.injEq, h.ran id]
    simp only [true_and]
    omega
  · obtain rfl := Option.some.inj hid
    exact ⟨rfl, Nat.succ_pos _⟩
  · rw [hended, hbegun]
    simp only [ne_eq, Option.some.injEq]
    omega
  · simpa using h.shutdown
  · exact ⟨hrunning, fun hmem => (h.works hworks).2 (by rw [hqueue]; exact List.mem_cons_of_mem _ hmem)⟩
  · exact .inl ⟨hrunning, h.releases_last hqueue hrunning hstops nofun⟩
  · obtain ⟨hid, hlater⟩ := h.collected id (by simpa using hid)
    exact ⟨(hended id).mpr hid, hlater⟩
  · exact h.drained (by simpa using hdrained)
  · exact h.accepted (begun + 1) (Nat.succ_pos _) hlt
  · rw [h.ran]
    omega
  · exact fun earlier r hr hlt => (hbegun earlier).mpr ⟨(h.accepted_le earlier r hr).1, Nat.le_of_lt_succ hlt⟩

theorem lt_current (h : ExecutorInv e x J begun) {id other : Nat} (hcurrent : x.current = some id)
    (hother : Ended e other J) : other < id := by
  obtain ⟨⟨-, hle⟩, hne⟩ := (h.ended other).mp hother
  obtain ⟨rfl, -⟩ := h.current id hcurrent
  rw [hcurrent] at hne
  exact Nat.lt_of_le_of_ne hle fun heq => hne (congrArg some heq.symm)

theorem ended_of_mem_completed (h : ExecutorInv e x J begun) {p : Nat × Outcome} (hp : p ∈ x.completed) :
    Ended e p.1 J := by
  obtain ⟨id, outcome⟩ := p
  cases outcome with
  | returned => exact .inl (h.returned id hp)
  | threw => exact .inr (h.threw id hp)

theorem ends (h : ExecutorInv e x J begun) {id : Nat} (hcurrent : x.current = some id) {outcome : Outcome}
    (hn : n = .returned e id ∧ outcome = .returned ∨ n = .threw e id ∧ outcome = .threw) :
    ExecutorInv e
      { x with
        current := none
        completed := if x.alive && !x.m_stopping then x.completed ++ [(id, outcome)] else x.completed }
      (n :: J) begun ∧ Sound n J := by
  have hmem (m : Note E R) (hreturned : ∀ id, m ≠ .returned e id) (hthrew : ∀ id, m ≠ .threw e id) :
      m ∈ n :: J ↔ m ∈ J := by
    refine ⟨fun hmem => (List.mem_cons.mp hmem).resolve_left ?_, List.mem_cons_of_mem _⟩
    rintro rfl
    exact hn.elim (fun h => hreturned id h.1) fun h => hthrew id h.1
  have hended (other : Nat) : Ended e other (n :: J) ↔ other = id ∨ Ended e other J := by
    rcases hn with ⟨rfl, -⟩ | ⟨rfl, -⟩
    all_goals
      simp only [Ended, List.mem_cons, Note.returned.injEq, Note.threw.injEq, true_and, reduceCtorEq,
        false_or]
      tauto
  obtain ⟨hid, hpos⟩ := h.current id hcurrent
  -- The signal is posted, or it is not.
  have hsignal {p : Nat × Outcome}
      (hp : p ∈ if x.alive && !x.m_stopping then x.completed ++ [(id, outcome)] else x.completed) :
      p ∈ x.completed ∨ p = (id, outcome) := by
    split at hp
    · exact (List.mem_append.mp hp).imp_right List.mem_singleton.mp
    · exact .inl hp
  refine ⟨⟨h.begun_le, h.queue,
    fun other r hr => h.accepted_le other r ((hmem (.accepted e other r) nofun nofun).mp hr), fun other h0 hle => ?_,
    fun other => (hmem (.ran e other) nofun nofun).trans (h.ran other), nofun, fun other => ?_,
    (hmem (.shutdown e) nofun nofun).trans h.shutdown, h.works, fun hstops => ?_, h.cleared,
    fun other task htask => List.mem_cons_of_mem _ (h.kept other task htask), ?_, fun other hother => ?_,
    fun other hother => ?_, fun other hother => ?_,
    fun hdrained => h.drained ((hmem (.drained e) nofun nofun).mp hdrained)⟩, ?_⟩
  · obtain ⟨r, hr⟩ := h.accepted other h0 hle
    exact ⟨r, List.mem_cons_of_mem _ hr⟩
  · rw [hended, h.ended, hcurrent]
    simp only [ne_eq, Option.some.injEq, reduceCtorEq, not_false_eq_true, and_true]
    omega
  · exact (h.stops hstops).imp_right fun hrest => ⟨hrest.1, hrest.2.1, rfl⟩
  · dsimp only
    split
    · rw [List.map_append, List.pairwise_append]
      refine ⟨h.sorted, List.pairwise_singleton _ _, fun other hother last hlast => ?_⟩
      obtain ⟨p, hp, rfl⟩ := List.mem_map.mp hother
      obtain rfl := List.mem_singleton.mp hlast
      exact h.lt_current hcurrent (h.ended_of_mem_completed hp)
    · exact h.sorted
  · rcases hsignal hother with hother | heq
    · exact List.mem_cons_of_mem _ (h.returned other hother)
    · obtain ⟨rfl, rfl⟩ := Prod.mk.inj heq
      rcases hn with ⟨rfl, -⟩ | ⟨-, hcontra⟩
      · exact List.mem_cons_self
      · cases hcontra
  · rcases hsignal hother with hother | heq
    · exact List.mem_cons_of_mem _ (h.threw other hother)
    · obtain ⟨rfl, rfl⟩ := Prod.mk.inj heq
      rcases hn with ⟨-, hcontra⟩ | ⟨rfl, -⟩
      · cases hcontra
      · exact List.mem_cons_self
  · obtain ⟨hold, hlater⟩ := h.collected other
      (hother.imp (hmem (.done e other) nofun nofun).mp (hmem (.failed e other) nofun nofun).mp)
    refine ⟨(hended other).mpr (.inr hold), fun p hp => ?_⟩
    rcases hsignal hp with hp | rfl
    · exact hlater p hp
    · exact h.lt_current hcurrent hold
  · have hran : .ran e id ∈ J := (h.ran id).mpr ⟨by omega, by omega⟩
    have hnot : ¬Ended e id J := fun hid => absurd (h.lt_current hcurrent hid) (Nat.lt_irrefl _)
    rcases hn with ⟨rfl, -⟩ | ⟨rfl, -⟩
    all_goals exact ⟨hran, hnot⟩

theorem release (h : ExecutorInv e x J begun) {id : Nat} {queue : List WorkerEvent}
    (hqueue : x.queue = .releaseTask id :: queue) (hrunning : x.thread = .running) :
    ExecutorInv e { x with queue } J begun := by
  have hnumbers := h.queue
  rw [hqueue] at hnumbers
  refine ⟨h.begun_le, hnumbers, h.accepted_le, h.accepted, h.ran, h.current, h.ended, h.shutdown,
    fun hworks => ⟨hrunning, fun hmem => ?_⟩, fun hstops => .inl ⟨hrunning, ?_⟩, h.cleared, h.kept, h.sorted,
    h.returned, h.threw, h.collected, h.drained⟩
  · exact (h.works hworks).2 (by rw [hqueue]; exact List.mem_cons_of_mem _ hmem)
  · exact h.releases_last hqueue hrunning hstops nofun

theorem post_release (h : ExecutorInv e x J begun) (hworks : x.m_stopping = false) (id : Nat) :
    ExecutorInv e { x with queue := x.queue ++ [.releaseTask id] } J begun := by
  refine ⟨h.begun_le, ?_, h.accepted_le, h.accepted, h.ran, h.current, h.ended, h.shutdown,
    fun _ => ⟨(h.works hworks).1, ?_⟩, fun hstops => absurd (hworks.symm.trans hstops) (by decide), h.cleared,
    h.kept, h.sorted, h.returned, h.threw, h.collected, h.drained⟩
  · rw [List.filterMap_append, h.queue]
    exact List.append_nil _
  · simpa using (h.works hworks).2

theorem releaseAll (h : ExecutorInv e x J begun) {queue : List WorkerEvent}
    (hqueue : x.queue = .releaseAllTasks :: queue) (hidle : x.current = none) :
    ExecutorInv e { x with queue, thread := .quitPosted } J begun := by
  have hmem : .releaseAllTasks ∈ x.queue := by rw [hqueue]; exact List.mem_cons_self
  have hstops : x.m_stopping = true := by
    by_contra hworks
    exact (h.works (by simpa using hworks)).2 hmem
  have hempty : queue = [] := by
    rcases h.stops hstops with ⟨-, front, hfront, hnone⟩ | ⟨-, hempty, -⟩
    · rw [hqueue] at hfront
      cases front with
      | nil => exact (List.cons.inj hfront).2
      | cons first front =>
        obtain ⟨rfl, -⟩ := List.cons.inj hfront
        exact absurd List.mem_cons_self hnone
    · rw [hempty] at hmem
      cases hmem
  have hnumbers := h.queue
  rw [hqueue] at hnumbers
  have hthread : x.thread = .running := by
    rcases h.stops hstops with ⟨hrunning, -⟩ | ⟨-, hempty, -⟩
    · exact hrunning
    · rw [hempty] at hmem
      cases hmem
  refine ⟨h.begun_le, hnumbers, h.accepted_le, h.accepted, h.ran, h.current, h.ended, h.shutdown,
    fun hworks => absurd (hstops.symm.trans hworks) (by decide), fun _ => .inr ⟨nofun, hempty, hidle⟩,
    h.cleared, h.kept, h.sorted, h.returned, h.threw, h.collected, fun hdrained => ?_⟩
  rw [h.drained hdrained] at hthread
  cases hthread

theorem advance (h : ExecutorInv e x J begun) (hnot : x.thread ≠ .running) (hhere : x.thread ≠ .gone)
    (stage : Stage) (hstage : stage ≠ .running) : ExecutorInv e { x with thread := stage } J begun := by
  refine ⟨h.begun_le, h.queue, h.accepted_le, h.accepted, h.ran, h.current, h.ended, h.shutdown,
    fun hworks => absurd (h.works hworks).1 hnot, fun hstops => .inr ⟨hstage, ?_⟩, h.cleared, h.kept, h.sorted,
    h.returned, h.threw, h.collected, fun hdrained => absurd (h.drained hdrained) hhere⟩
  rcases h.stops hstops with ⟨hrunning, -⟩ | ⟨-, hrest⟩
  · exact absurd hrunning hnot
  · exact hrest

/-- An executor whose thread is not running any more has run every task. -/
theorem all_ended (h : ExecutorInv e x J begun) (hnot : x.thread ≠ .running) :
    .shutdown e ∈ J ∧ ∀ id r, .accepted e id r ∈ J → Ended e id J := by
  have hstops : x.m_stopping = true := by
    by_contra hworks
    exact hnot (h.works (by simpa using hworks)).1
  refine ⟨h.shutdown.mpr hstops, fun id r hid => ?_⟩
  rcases h.stops hstops with ⟨hrunning, -⟩ | ⟨-, hqueue, hidle⟩
  · exact absurd hrunning hnot
  · have hnumbers := h.queue
    rw [hqueue] at hnumbers
    have hall : x.m_next_task_id - begun = 0 := List.range'_eq_nil_iff.mp hnumbers.symm
    obtain ⟨h0, hle⟩ := h.accepted_le id r hid
    exact (h.ended id).mpr ⟨⟨h0, by omega⟩, by rw [hidle]; exact nofun⟩

theorem drain (h : ExecutorInv e x J begun) (hthread : x.thread = .joining) (m_drained : Bool) :
    ExecutorInv e { x with thread := .gone, m_drained } (.drained e :: J) begun ∧ Sound (.drained e) J := by
  have hgone := h.advance (by rw [hthread]; exact nofun) (by rw [hthread]; exact nofun)
    .gone nofun
  have hended (id : Nat) : Ended e id (.drained e :: J) ↔ Ended e id J := by simp [Ended]
  refine ⟨⟨h.begun_le, h.queue, fun id r hid => h.accepted_le id r (by simpa using hid), fun id h0 hid => ?_,
    fun id => ?_, h.current, fun id => (hended id).trans (h.ended id), ?_, hgone.works, hgone.stops, h.cleared,
    fun id task hid => List.mem_cons_of_mem _ (h.kept id task hid), h.sorted,
    fun id hid => List.mem_cons_of_mem _ (h.returned id hid),
    fun id hid => List.mem_cons_of_mem _ (h.threw id hid), fun id hid => ?_, fun _ => rfl⟩, fun hdrained => ?_,
    h.all_ended (by rw [hthread]; exact nofun)⟩
  · obtain ⟨r, hr⟩ := h.accepted id h0 hid
    exact ⟨r, List.mem_cons_of_mem _ hr⟩
  · simpa using h.ran id
  · simpa using h.shutdown
  · obtain ⟨hid, hlater⟩ := h.collected id (by simpa using hid)
    exact ⟨(hended id).mpr hid, hlater⟩
  · rw [h.drained hdrained] at hthread
    cases hthread

end ExecutorInv

end GuiQml.Executors
