import GuiQml.Lib.Journal
import GuiQml.Shutdown.Model
import Mathlib.Data.Finset.Card
import Mathlib.Data.Finset.Range
import Mathlib.Order.Interval.Finset.Nat

/-!
# The order of the shutdown

The participants of a phase are counted down, and each is counted once. What the workers may call next
follows from the flags of the two objects, so each part of the state has its own invariant.
-/

namespace GuiQml.Shutdown

open Journal Reach

variable {before after : Nat} {s : System} {journal : List Note} {n : Note}

/-- What stands before a call or a signal. -/
def Ordered (before after : Nat) : Note → List Note → Prop
  | .startShutdown, older => ∀ i < before, .begun ⟨true, i⟩ ∈ older ∧ .signalled ⟨true, i⟩ ∈ older
  | .appInitMain, older => .appInitMain ∉ older ∧ .appShutdown ∉ older
  | .subscribed, older => .subscribed ∉ older ∧ .appShutdown ∉ older
  | .unsubscribed, older => .subscribed ∈ older
  | .appShutdown, older => .appShutdown ∉ older ∧ .startShutdownReturned ∈ older ∧
      (∀ i < after, .begun ⟨false, i⟩ ∈ older ∧ .signalled ⟨false, i⟩ ∈ older) ∧
      (.appInitMain ∈ older → .appInitMainReturned ∈ older) ∧
      (.subscribed ∈ older → .unsubscribed ∈ older)
  | .shutdownResult, older => .shutdownResult ∉ older ∧ .appShutdownReturned ∈ older
  | .finished, older => .finished ∉ older ∧ .appShutdownReturned ∈ older
  | _, _ => True

/-! ## Participants -/

/-- The participants of a phase that are not counted yet. -/
def left (before_interrupt : Bool) (count : Nat) (completed : Finset Participant) : Finset Nat :=
  {i ∈ Finset.range count | (⟨before_interrupt, i⟩ : Participant) ∉ completed}

theorem left_eq_empty {before_interrupt : Bool} {count : Nat} {completed : Finset Participant} :
    left before_interrupt count completed = ∅ ↔ ∀ i < count, ⟨before_interrupt, i⟩ ∈ completed := by
  simp [left, Finset.filter_eq_empty_iff]

theorem card_left_of_none {before_interrupt : Bool} {count : Nat} {completed : Finset Participant}
    (h : ∀ i, ⟨before_interrupt, i⟩ ∉ completed) : (left before_interrupt count completed).card = count := by
  have hall : left before_interrupt count completed = Finset.range count :=
    Finset.filter_true_of_mem fun i _ => h i
  rw [hall, Finset.card_range]

theorem card_left_insert {participant : Participant} (count : Nat) {completed : Finset Participant}
    (hnumber : participant.number < count) (hnew : participant ∉ completed) :
    (left participant.before_interrupt count (insert participant completed)).card + 1 =
      (left participant.before_interrupt count completed).card := by
  have herase : left participant.before_interrupt count (insert participant completed) =
      (left participant.before_interrupt count completed).erase participant.number := by
    ext i
    obtain ⟨before_interrupt, number⟩ := participant
    simp only [left, Finset.mem_filter, Finset.mem_erase, Finset.mem_insert, Participant.mk.injEq, true_and]
    tauto
  have hmem : participant.number ∈ left participant.before_interrupt count completed :=
    Finset.mem_filter.mpr ⟨Finset.mem_range.mpr hnumber, hnew⟩
  rw [herase, Finset.card_erase_add_one hmem]

/-- How many participants there are in a phase. -/
def count (before after : Nat) (before_interrupt : Bool) : Nat := if before_interrupt then before else after

/-- The coordinator counts those of the phase, and asks for the interruption and the shutdown at their end. -/
structure Coordinated (before after : Nat) (c : QmlShutdownCoordinator)
    (interrupt_requested shutdown_requested : Bool) (to_begin : List Participant) (journal : List Note) :
    Prop where
  unrequested : c.m_shutdown_requested = false →
    c.completed = ∅ ∧ c.m_draining_before_interrupt = false ∧ c.m_draining_after_interrupt = false ∧
      interrupt_requested = false
  draining_before : c.m_draining_before_interrupt = true → c.m_draining_after_interrupt = false ∧
    interrupt_requested = false ∧ c.m_pending_participants = (left true before c.completed).card
  draining_after : c.m_draining_after_interrupt = true →
    interrupt_requested = true ∧ .startShutdownReturned ∈ journal ∧
      c.m_pending_participants = (left false after c.completed).card
  waits : c.m_draining_before_interrupt = false → c.m_draining_after_interrupt = false →
    c.m_pending_participants = 0
  interrupted : interrupt_requested = true → left true before c.completed = ∅
  shut_down : shutdown_requested = true →
    c.m_draining_after_interrupt = true ∧ left false after c.completed = ∅
  completed : ∀ p ∈ c.completed, .begun p ∈ journal ∧ .signalled p ∈ journal ∧
    (p.before_interrupt = false → c.m_draining_after_interrupt = true)
  registered : ∀ p, .begun p ∈ journal ∨ p ∈ to_begin → p.number < count before after p.before_interrupt

namespace Coordinated

variable {c : QmlShutdownCoordinator} {interrupt_requested shutdown_requested : Bool}
  {to_begin : List Participant}

theorem start : Coordinated before after {} false false [] [] where
  unrequested _ := ⟨rfl, rfl, rfl, rfl⟩
  draining_before h := nomatch h
  draining_after h := nomatch h
  waits _ _ := rfl
  interrupted h := nomatch h
  shut_down h := nomatch h
  completed := by simp
  registered := by simp

theorem note (h : Coordinated before after c interrupt_requested shutdown_requested to_begin journal)
    (hnote : ∀ p, n ≠ .begun p) :
    Coordinated before after c interrupt_requested shutdown_requested to_begin (n :: journal) where
  unrequested := h.unrequested
  draining_before := h.draining_before
  draining_after hdraining := by
    obtain ⟨hinterrupt, hreturned, hpending⟩ := h.draining_after hdraining
    exact ⟨hinterrupt, List.mem_cons_of_mem _ hreturned, hpending⟩
  waits := h.waits
  interrupted := h.interrupted
  shut_down := h.shut_down
  completed p hp := by
    obtain ⟨hbegun, hsignalled, hafter⟩ := h.completed p hp
    exact ⟨List.mem_cons_of_mem _ hbegun, List.mem_cons_of_mem _ hsignalled, hafter⟩
  registered p hp := by
    refine h.registered p (hp.imp_left fun hbegun => ?_)
    exact (List.mem_cons.mp hbegun).resolve_left fun heq => hnote p heq.symm

theorem begin {p : Participant}
    (h : Coordinated before after c interrupt_requested shutdown_requested (p :: to_begin) journal) :
    Coordinated before after c interrupt_requested shutdown_requested to_begin (.begun p :: journal) where
  unrequested := h.unrequested
  draining_before := h.draining_before
  draining_after hdraining := by
    obtain ⟨hinterrupt, hreturned, hpending⟩ := h.draining_after hdraining
    exact ⟨hinterrupt, List.mem_cons_of_mem _ hreturned, hpending⟩
  waits := h.waits
  interrupted := h.interrupted
  shut_down := h.shut_down
  completed q hq := by
    obtain ⟨hbegun, hsignalled, hafter⟩ := h.completed q hq
    exact ⟨List.mem_cons_of_mem _ hbegun, List.mem_cons_of_mem _ hsignalled, hafter⟩
  registered q hq := by
    rcases hq with hq | hq
    · rcases List.mem_cons.mp hq with heq | hq
      · obtain rfl := Note.begun.inj heq
        exact h.registered q (.inr List.mem_cons_self)
      · exact h.registered q (.inl hq)
    · exact h.registered q (.inr (List.mem_cons_of_mem _ hq))

theorem request (h : Coordinated before after c interrupt_requested shutdown_requested to_begin journal)
    (hrequested : c.m_shutdown_requested = false) :
    Coordinated before after
      { c with
        m_shutdown_requested := true
        m_pending_participants := before
        m_draining_before_interrupt := decide (before ≠ 0) }
      interrupt_requested shutdown_requested (participants true before ++ to_begin) journal := by
  obtain ⟨hcompleted, hbefore, hafter, hinterrupt⟩ := h.unrequested hrequested
  have hleft : left true before c.completed = Finset.range before := by simp [left, hcompleted]
  refine ⟨(fun h => nomatch h), fun _ => ⟨hafter, hinterrupt, ?_⟩, fun hdraining => ?_, fun hnone _ => ?_,
    fun h => ?_, h.shut_down, h.completed, fun p hp => ?_⟩
  · rw [hleft, Finset.card_range]
  · exact absurd (hafter.symm.trans hdraining) (by decide)
  · have hzero : before = 0 := not_not.mp (of_decide_eq_false hnone)
    exact congrArg _ hzero
  · exact absurd (hinterrupt.symm.trans h) (by decide)
  · rcases hp with hp | hp
    · exact h.registered p (.inl hp)
    · rcases List.mem_append.mp hp with hp | hp
      · obtain ⟨i, hi, rfl⟩ := List.mem_map.mp hp
        exact List.mem_range.mp hi
      · exact h.registered p (.inr hp)

theorem drain_after (h : Coordinated before after c interrupt_requested shutdown_requested to_begin journal)
    (hinterrupt : interrupt_requested = true) (hreturned : .startShutdownReturned ∈ journal)
    (hdraining : c.m_draining_after_interrupt = false) :
    Coordinated before after
      { c with m_draining_after_interrupt := true, m_pending_participants := after }
      interrupt_requested shutdown_requested (participants false after ++ to_begin) journal := by
  have hbefore (hbefore : c.m_draining_before_interrupt = true) : False := by
    rw [(h.draining_before hbefore).2.1] at hinterrupt
    cases hinterrupt
  have hnone : ∀ i, (⟨false, i⟩ : Participant) ∉ c.completed := fun i hi => by
    rw [(h.completed _ hi).2.2 rfl] at hdraining
    cases hdraining
  refine ⟨fun hrequested => ?_, fun h => (hbefore h).elim, fun _ => ⟨hinterrupt, hreturned, ?_⟩,
    (fun _ h => nomatch h), h.interrupted, fun hshutdown => ?_, fun p hp => ?_, fun p hp => ?_⟩
  · rw [(h.unrequested hrequested).2.2.2] at hinterrupt
    cases hinterrupt
  · rw [card_left_of_none hnone]
  · rw [(h.shut_down hshutdown).1] at hdraining
    cases hdraining
  · obtain ⟨hbegun, hsignalled, -⟩ := h.completed p hp
    exact ⟨hbegun, hsignalled, fun _ => rfl⟩
  · rcases hp with hp | hp
    · exact h.registered p (.inl hp)
    · rcases List.mem_append.mp hp with hp | hp
      · obtain ⟨i, hi, rfl⟩ := List.mem_map.mp hp
        exact List.mem_range.mp hi
      · exact h.registered p (.inr hp)

theorem complete (h : Coordinated before after c interrupt_requested shutdown_requested to_begin journal)
    {p : Participant}
    (hdraining : (if p.before_interrupt then c.m_draining_before_interrupt
      else c.m_draining_after_interrupt) = true)
    (hnew : p ∉ c.completed) (hbegun : .begun p ∈ journal) (hsignalled : .signalled p ∈ journal) :
    Coordinated before after
      { c with
        completed := insert p c.completed
        m_pending_participants := c.m_pending_participants - 1 }
      interrupt_requested shutdown_requested to_begin journal := by
  have hnumber := h.registered p (.inl hbegun)
  have hempty (b : Bool) (k : Nat) (h : left b k c.completed = ∅) : left b k (insert p c.completed) = ∅ :=
    left_eq_empty.mpr fun i hi => Finset.mem_insert_of_mem (left_eq_empty.mp h i hi)
  have hcompleted (hphase : p.before_interrupt = false → c.m_draining_after_interrupt = true) :
      ∀ q ∈ insert p c.completed, .begun q ∈ journal ∧ .signalled q ∈ journal ∧
        (q.before_interrupt = false → c.m_draining_after_interrupt = true) := by
    intro q hq
    rcases Finset.mem_insert.mp hq with rfl | hq
    · exact ⟨hbegun, hsignalled, hphase⟩
    · exact h.completed q hq
  cases hp : p.before_interrupt with
  | true =>
    rw [hp] at hdraining
    obtain ⟨hafter, hinterrupt, hpending⟩ := h.draining_before hdraining
    have hcard := card_left_insert before (by simpa [count, hp] using hnumber) hnew
    rw [hp] at hcard
    refine ⟨fun hrequested => ?_, fun _ => ⟨hafter, hinterrupt, ?_⟩, fun h => ?_, fun h => ?_,
      fun hinterrupt => hempty _ _ (h.interrupted hinterrupt),
      fun hshutdown => ⟨(h.shut_down hshutdown).1, hempty _ _ (h.shut_down hshutdown).2⟩,
      hcompleted fun h => absurd (hp.symm.trans h) (by decide), h.registered⟩
    · exact absurd ((h.unrequested hrequested).2.1.symm.trans hdraining) (by decide)
    · show c.m_pending_participants - 1 = (left _ _ (insert p c.completed)).card
      rw [hpending]
      omega
    · exact absurd (hafter.symm.trans h) (by decide)
    · exact absurd (h.symm.trans hdraining) (by decide)
  | false =>
    rw [hp] at hdraining
    have hdraining : c.m_draining_after_interrupt = true := hdraining
    obtain ⟨hinterrupt, hreturned, hpending⟩ := h.draining_after hdraining
    have hcard := card_left_insert after (by simpa [count, hp] using hnumber) hnew
    rw [hp] at hcard
    refine ⟨fun hrequested => ?_, fun hbefore => ?_, fun _ => ⟨hinterrupt, hreturned, ?_⟩, fun _ h => ?_,
      fun hinterrupt => hempty _ _ (h.interrupted hinterrupt),
      fun hshutdown => ⟨(h.shut_down hshutdown).1, hempty _ _ (h.shut_down hshutdown).2⟩,
      hcompleted fun _ => hdraining, h.registered⟩
    · exact absurd ((h.unrequested hrequested).2.2.1.symm.trans hdraining) (by decide)
    · exact absurd ((h.draining_before hbefore).1.symm.trans hdraining) (by decide)
    · show c.m_pending_participants - 1 = (left _ _ (insert p c.completed)).card
      rw [hpending]
      omega
    · exact absurd (h.symm.trans hdraining) (by decide)

theorem end_before (h : Coordinated before after c interrupt_requested shutdown_requested to_begin journal)
    (hdraining : c.m_draining_before_interrupt = true) (hpending : c.m_pending_participants = 0) :
    Coordinated before after { c with m_draining_before_interrupt := false } interrupt_requested
      shutdown_requested to_begin journal ∧ left true before c.completed = ∅ := by
  obtain ⟨hafter, hinterrupt, hcard⟩ := h.draining_before hdraining
  refine ⟨⟨fun hrequested => ?_, (fun h => nomatch h), h.draining_after, fun _ _ => hpending,
    h.interrupted, h.shut_down, h.completed, h.registered⟩, ?_⟩
  · exact absurd ((h.unrequested hrequested).2.1.symm.trans hdraining) (by decide)
  · rw [← Finset.card_eq_zero]
    omega

theorem pending_nonneg
    (h : Coordinated before after c interrupt_requested shutdown_requested to_begin journal) :
    0 ≤ c.m_pending_participants := by
  cases hbefore : c.m_draining_before_interrupt with
  | true =>
    rw [(h.draining_before hbefore).2.2]
    exact Int.natCast_nonneg _
  | false =>
    cases hafter : c.m_draining_after_interrupt with
    | true =>
      rw [(h.draining_after hafter).2.2]
      exact Int.natCast_nonneg _
    | false => exact (h.waits hbefore hafter).ge

end Coordinated

/-! ## The interruption -/

structure Interrupting (e : Executor Unit Unit InterruptResult) (requested : Bool) (journal : List Note) :
    Prop where
  busy : e.waiting ≠ [] ∨ e.running ≠ none ∨ e.returned ≠ [] → requested = true
  interrupted : .interrupted ∈ e.returned → .startShutdownReturned ∈ journal

namespace Interrupting

variable {e : Executor Unit Unit InterruptResult} {requested : Bool}

theorem note (h : Interrupting e requested journal) : Interrupting e requested (n :: journal) :=
  ⟨h.busy, fun hmem => List.mem_cons_of_mem _ (h.interrupted hmem)⟩

theorem submit (h : Interrupting e requested journal) : Interrupting (e.submit ()) true journal := by
  unfold Executor.submit
  split
  · exact ⟨fun _ => rfl, h.interrupted⟩
  · exact ⟨fun _ => rfl, h.interrupted⟩

theorem shutdown (h : Interrupting e requested journal) : Interrupting e.shutdown requested journal := by
  refine ⟨fun hbusy => h.busy ?_, fun hmem => nomatch hmem⟩
  rcases hbusy with hbusy | hbusy | hbusy
  · exact .inl hbusy
  · exact .inr (.inl hbusy)
  · exact absurd rfl hbusy

theorem ends (h : Interrupting e requested journal) (hrunning : e.running ≠ none) {result : InterruptResult}
    (hresult : result = .interrupted → .startShutdownReturned ∈ journal) :
    Interrupting (e.ends result) requested journal := by
  refine ⟨fun _ => h.busy (.inr (.inl hrunning)), fun hmem => ?_⟩
  unfold Executor.ends at hmem
  dsimp only at hmem
  split at hmem
  · cases hmem
  · rcases List.mem_append.mp hmem with hmem | hmem
    · exact h.interrupted hmem
    · exact hresult (List.mem_singleton.mp hmem).symm

end Interrupting

/-! ## The initialisation and the shutdown of the node -/

/-- The initialisation comes before the shutdown on the one worker. -/
structure Initializing (e : Executor InitTask InitStage InitResult) (state : WorkerState)
    (requested shutdown_requested : Bool) (journal : List Note) : Prop where
  waiting : e.waiting.Sublist [.initializeNode, .shutdown]
  initialize_waiting : .initializeNode ∈ e.waiting →
    requested = true ∧ .appInitMain ∉ journal ∧ .appShutdown ∉ journal
  shutdown_waiting : .shutdown ∈ e.waiting → shutdown_requested = true ∧ .appShutdown ∉ journal
  requested : .appInitMain ∈ journal → requested = true
  shutdown_requested : .appShutdown ∈ journal → shutdown_requested = true
  initializing : ∀ stage, e.running = some stage → stage ≠ .appShutdown → .appShutdown ∉ journal
  returned : ∀ stage, e.running = some stage → stage ≠ .appInitMain → stage ≠ .appShutdown →
    .appInitMainReturned ∈ journal
  idle : e.running = none ∨ e.running = some .appShutdown → .appInitMain ∈ journal →
    .appInitMainReturned ∈ journal ∨ state.initialization_threw = true
  factory : state.pending_subscription_factory = true → .subscribed ∉ journal
  subscription : .subscribed ∈ journal → state.subscription = true ∨ .unsubscribed ∈ journal
  subscribed : state.subscription = true → .subscribed ∈ journal

namespace Initializing

variable {e : Executor InitTask InitStage InitResult} {state : WorkerState}
  {requested shutdown_requested : Bool}

theorem start (pending_subscription_factory : Bool) :
    Initializing {} { pending_subscription_factory } false false [] where
  waiting := List.nil_sublist _
  initialize_waiting h := nomatch h
  shutdown_waiting h := nomatch h
  requested h := nomatch h
  shutdown_requested h := nomatch h
  initializing _ h := nomatch h
  returned _ h := nomatch h
  idle _ h := nomatch h
  factory _ h := nomatch h
  subscription h := nomatch h
  subscribed h := nomatch h

/-- The notes that the worker of the initialisation writes. -/
def Concerns : Note → Prop
  | .appInitMain | .appInitMainReturned | .subscribed | .unsubscribed | .appShutdown => True
  | _ => False

theorem mem_cons_iff_of_not_concerns (hn : ¬Concerns n) {m : Note} (hm : Concerns m) :
    m ∈ n :: journal ↔ m ∈ journal :=
  ⟨fun hmem => (List.mem_cons.mp hmem).resolve_left fun heq => hn (heq ▸ hm), List.mem_cons_of_mem _⟩

theorem note (h : Initializing e state requested shutdown_requested journal) (hn : ¬Concerns n) :
    Initializing e state requested shutdown_requested (n :: journal) := by
  have hmem {m : Note} (hm : Concerns m) : m ∈ n :: journal ↔ m ∈ journal :=
    mem_cons_iff_of_not_concerns hn hm
  refine ⟨h.waiting, ?_, ?_, ?_, ?_, ?_, ?_, ?_, ?_, ?_, ?_⟩
  · rw [hmem (m := .appInitMain) trivial, hmem (m := .appShutdown) trivial]
    exact h.initialize_waiting
  · rw [hmem (m := .appShutdown) trivial]
    exact h.shutdown_waiting
  · rw [hmem (m := .appInitMain) trivial]
    exact h.requested
  · rw [hmem (m := .appShutdown) trivial]
    exact h.shutdown_requested
  · rw [hmem (m := .appShutdown) trivial]
    exact h.initializing
  · rw [hmem (m := .appInitMainReturned) trivial]
    exact h.returned
  · rw [hmem (m := .appInitMain) trivial, hmem (m := .appInitMainReturned) trivial]
    exact h.idle
  · rw [hmem (m := .subscribed) trivial]
    exact h.factory
  · rw [hmem (m := .subscribed) trivial, hmem (m := .unsubscribed) trivial]
    exact h.subscription
  · rw [hmem (m := .subscribed) trivial]
    exact h.subscribed

theorem of_eq {e' : Executor InitTask InitStage InitResult}
    (h : Initializing e state requested shutdown_requested journal) (stopping : Bool)
    (hwaiting : e'.waiting = e.waiting) (hrunning : e'.running = e.running) :
    Initializing e' { state with stopping } requested shutdown_requested journal := by
  obtain ⟨waiting, running, returned, m_stopping, m_drained⟩ := e
  obtain ⟨waiting', running', returned', m_stopping', m_drained'⟩ := e'
  obtain rfl : waiting' = waiting := hwaiting
  obtain rfl : running' = running := hrunning
  exact ⟨h.waiting, h.initialize_waiting, h.shutdown_waiting, h.requested, h.shutdown_requested,
    h.initializing, h.returned, h.idle, h.factory, h.subscription, h.subscribed⟩

theorem submit_initialize (h : Initializing e state false false journal) :
    Initializing (e.submit .initializeNode) state true false journal := by
  have hmain : .appInitMain ∉ journal := fun hmem => nomatch h.requested hmem
  have hshutdown : .appShutdown ∉ journal := fun hmem => nomatch h.shutdown_requested hmem
  have hempty : e.waiting = [] := by
    refine List.eq_nil_iff_forall_not_mem.mpr fun task htask => ?_
    cases task with
    | initializeNode => exact nomatch (h.initialize_waiting htask).1
    | shutdown => exact nomatch (h.shutdown_waiting htask).1
  unfold Executor.submit
  split
  · exact ⟨h.waiting, fun hmem => ⟨rfl, (h.initialize_waiting hmem).2⟩, h.shutdown_waiting,
      fun _ => rfl, h.shutdown_requested, h.initializing, h.returned, h.idle, h.factory, h.subscription,
      h.subscribed⟩
  · refine ⟨?_, fun _ => ⟨rfl, hmain, hshutdown⟩, fun hmem => ?_, fun _ => rfl, h.shutdown_requested,
      h.initializing, h.returned, h.idle, h.factory, h.subscription, h.subscribed⟩
    · rw [hempty]
      exact (List.nil_sublist [InitTask.shutdown]).cons_cons _
    · rw [hempty] at hmem
      exact absurd hmem (by simp)

theorem submit_shutdown (h : Initializing e state requested false journal) :
    Initializing (e.submit .shutdown) state requested true journal := by
  have hshutdown : .appShutdown ∉ journal := fun hmem => nomatch h.shutdown_requested hmem
  have hwaiting : e.waiting.Sublist [.initializeNode] := by
    have hnone : .shutdown ∉ e.waiting := fun hmem => nomatch (h.shutdown_waiting hmem).1
    have := h.waiting.filter (· ≠ .shutdown)
    rwa [List.filter_eq_self.mpr fun task htask => by
      simpa using fun heq : task = .shutdown => hnone (heq ▸ htask)] at this
  unfold Executor.submit
  split
  · exact ⟨h.waiting, h.initialize_waiting, fun hmem => ⟨rfl, (h.shutdown_waiting hmem).2⟩, h.requested,
      fun _ => rfl, h.initializing, h.returned, h.idle, h.factory, h.subscription, h.subscribed⟩
  · refine ⟨hwaiting.append_right [.shutdown], fun hmem => ?_, fun _ => ⟨rfl, hshutdown⟩, h.requested,
      fun _ => rfl, h.initializing, h.returned, h.idle, h.factory, h.subscription, h.subscribed⟩
    exact h.initialize_waiting ((List.mem_append.mp hmem).resolve_right (by decide))

theorem take_initialize (h : Initializing e state requested shutdown_requested journal)
    {waiting : List InitTask} (hwaiting : e.waiting = .initializeNode :: waiting) :
    Initializing { e with waiting, running := some .appInitMain } state requested shutdown_requested
      (.appInitMain :: journal) ∧ .appInitMain ∉ journal ∧ .appShutdown ∉ journal := by
  obtain ⟨hrequested, hmain, hshutdown⟩ := h.initialize_waiting (by rw [hwaiting]; exact List.mem_cons_self)
  have hsub : waiting.Sublist [.shutdown] := by
    have := h.waiting
    rw [hwaiting] at this
    exact List.cons_sublist_cons.mp this
  refine ⟨⟨hsub.cons _, fun hmem => ?_, fun hmem => ?_, fun _ => hrequested, fun hmem => ?_,
    fun _ _ _ => ?_, fun stage heq hmain => ?_, fun hidle => ?_, fun hfactory => ?_, fun hmem => ?_,
    fun hsubscription => ?_⟩, hmain, hshutdown⟩
  · exact absurd (hsub.subset hmem) (by decide)
  · refine ⟨(h.shutdown_waiting (by rw [hwaiting]; exact List.mem_cons_of_mem _ hmem)).1, ?_⟩
    simpa using hshutdown
  · exact h.shutdown_requested (by simpa using hmem)
  · simpa using hshutdown
  · exact absurd (Option.some.inj heq).symm hmain
  · simp at hidle
  · simpa using h.factory hfactory
  · simpa using h.subscription (by simpa using hmem)
  · simpa using h.subscribed hsubscription

theorem ends (h : Initializing e state requested shutdown_requested journal)
    (hidle : .appInitMain ∈ journal → .appInitMainReturned ∈ journal ∨ state.initialization_threw = true)
    (result : InitResult) :
    Initializing (e.ends result) state requested shutdown_requested journal :=
  ⟨h.waiting, h.initialize_waiting, h.shutdown_waiting, h.requested, h.shutdown_requested,
    (fun _ heq => nomatch heq), (fun _ heq => nomatch heq), fun _ => hidle, h.factory, h.subscription,
    h.subscribed⟩

theorem skip_shutdown (h : Initializing e state requested shutdown_requested journal)
    {waiting : List InitTask} (hwaiting : e.waiting = .shutdown :: waiting) (hrunning : e.running = none)
    (result : InitResult) :
    Initializing ({ e with waiting }.ends result) state requested shutdown_requested journal := by
  have hsub : waiting.Sublist e.waiting := by
    rw [hwaiting]
    exact List.sublist_cons_self _ _
  have hrest : Initializing { e with waiting } state requested shutdown_requested journal :=
    ⟨hsub.trans h.waiting, fun hmem => h.initialize_waiting (hsub.subset hmem),
      fun hmem => h.shutdown_waiting (hsub.subset hmem), h.requested, h.shutdown_requested,
      h.initializing, h.returned, h.idle, h.factory, h.subscription, h.subscribed⟩
  exact hrest.ends (h.idle (.inl hrunning)) result

theorem take_shutdown (h : Initializing e state requested shutdown_requested journal)
    {waiting : List InitTask} (hwaiting : e.waiting = .shutdown :: waiting) (hrunning : e.running = none)
    (hsubscription : .subscribed ∈ journal → .unsubscribed ∈ journal) :
    Initializing { e with waiting, running := some .appShutdown }
      { state with subscription := false, pending_subscription_factory := false } requested
      shutdown_requested (.appShutdown :: journal) := by
  have hrequested := (h.shutdown_waiting (by rw [hwaiting]; exact List.mem_cons_self)).1
  have hempty : waiting = [] := by
    have hsub := h.waiting
    rw [hwaiting] at hsub
    cases hsub with
    | cons _ hsub => exact List.sublist_nil.mp (List.cons_sublist_cons.mp hsub)
  refine ⟨?_, ?_, ?_, fun hmem => ?_, fun _ => hrequested, fun stage heq hne => ?_, fun stage heq _ hne => ?_,
    fun _ hmem => ?_, (fun hfactory => nomatch hfactory), fun hmem => .inr ?_,
    (fun hsubscription => nomatch hsubscription)⟩
  · rw [hempty]
    exact List.nil_sublist _
  · rw [hempty]
    exact fun hmem => nomatch hmem
  · rw [hempty]
    exact fun hmem => nomatch hmem
  · exact h.requested (by simpa using hmem)
  · exact absurd (Option.some.inj heq).symm hne
  · exact absurd (Option.some.inj heq).symm hne
  · simpa using h.idle (.inl hrunning) (by simpa using hmem)
  · simpa using hsubscription (by simpa using hmem)

theorem unsubscribe (h : Initializing e state requested shutdown_requested journal) :
    Initializing e state requested shutdown_requested (.unsubscribed :: journal) := by
  refine ⟨h.waiting, fun hmem => ?_, fun hmem => ?_, fun hmem => ?_, fun hmem => ?_,
    fun stage heq hne => ?_, fun stage heq hmain hshutdown => ?_, fun hidle hmem => ?_, fun hfactory => ?_,
    fun _ => .inr List.mem_cons_self, fun hsubscription => ?_⟩
  · simpa using h.initialize_waiting hmem
  · simpa using h.shutdown_waiting hmem
  · exact h.requested (by simpa using hmem)
  · exact h.shutdown_requested (by simpa using hmem)
  · simpa using h.initializing stage heq hne
  · simpa using h.returned stage heq hmain hshutdown
  · simpa using h.idle hidle (by simpa using hmem)
  · simpa using h.factory hfactory
  · simpa using h.subscribed hsubscription

theorem main_returned (h : Initializing e state requested shutdown_requested journal)
    (hrunning : e.running = some .appInitMain) (success : Bool) :
    Initializing { e with running := some (.subscribe success) } state requested shutdown_requested
      (.appInitMainReturned :: journal) := by
  refine ⟨h.waiting, fun hmem => ?_, fun hmem => ?_, fun hmem => ?_, fun hmem => ?_,
    fun stage heq hne => ?_, fun _ _ _ _ => List.mem_cons_self, fun hidle => ?_, fun hfactory => ?_,
    fun hmem => ?_, fun hsubscription => ?_⟩
  · simpa using h.initialize_waiting hmem
  · simpa using h.shutdown_waiting hmem
  · exact h.requested (by simpa using hmem)
  · exact h.shutdown_requested (by simpa using hmem)
  · simpa using h.initializing _ hrunning (by decide)
  · simp at hidle
  · simpa using h.factory hfactory
  · simpa using h.subscription (by simpa using hmem)
  · simpa using h.subscribed hsubscription

theorem exchange (h : Initializing e state requested shutdown_requested journal) :
    Initializing e { state with pending_subscription_factory := false } requested shutdown_requested journal :=
  ⟨h.waiting, h.initialize_waiting, h.shutdown_waiting, h.requested, h.shutdown_requested,
    h.initializing, h.returned, h.idle, (fun hfactory => nomatch hfactory), h.subscription, h.subscribed⟩

theorem threw (h : Initializing e state requested shutdown_requested journal) :
    Initializing (e.ends .threw) { state with initialization_threw := true } requested shutdown_requested
      journal :=
  ⟨h.waiting, h.initialize_waiting, h.shutdown_waiting, h.requested, h.shutdown_requested,
    (fun _ heq => nomatch heq), (fun _ heq => nomatch heq), fun _ _ => .inr rfl, h.factory,
    h.subscription, h.subscribed⟩

theorem to_results (h : Initializing e state requested shutdown_requested journal) {success : Bool}
    (hrunning : e.running = some (.subscribe success)) :
    Initializing { e with running := some .results } state requested shutdown_requested journal :=
  ⟨h.waiting, h.initialize_waiting, h.shutdown_waiting, h.requested, h.shutdown_requested,
    fun _ _ _ => h.initializing _ hrunning (nomatch ·),
    fun _ _ _ _ => h.returned _ hrunning (nomatch ·) (nomatch ·), fun hidle => by simp at hidle,
    h.factory, h.subscription, h.subscribed⟩

theorem subscribe (h : Initializing e state requested shutdown_requested journal) {success : Bool}
    (hrunning : e.running = some (.subscribe success)) :
    Initializing { e with running := some .results }
      { state with pending_subscription_factory := false, subscription := true } requested
      shutdown_requested (.subscribed :: journal) := by
  refine ⟨h.waiting, fun hmem => ?_, fun hmem => ?_, fun hmem => ?_, fun hmem => ?_,
    fun stage heq hne => ?_, fun _ _ _ _ => ?_, fun hidle => ?_, (fun hfactory => nomatch hfactory),
    fun _ => .inl rfl, fun _ => List.mem_cons_self⟩
  · simpa using h.initialize_waiting hmem
  · simpa using h.shutdown_waiting hmem
  · exact h.requested (by simpa using hmem)
  · exact h.shutdown_requested (by simpa using hmem)
  · simpa using h.initializing _ hrunning (nomatch ·)
  · simpa using h.returned _ hrunning (nomatch ·) (nomatch ·)
  · simp at hidle

end Initializing

/-! ## The end -/

structure Ending (returned : List InitResult) (complete emitted : Bool) (callbacks : Nat)
    (journal : List Note) : Prop where
  returned : .completed true ∈ returned → .appShutdownReturned ∈ journal
  complete : complete = true → .appShutdownReturned ∈ journal
  silent : emitted = false → .shutdownResult ∉ journal ∧ .finished ∉ journal ∧ callbacks = 0
  callback : callbacks ≠ 0 → callbacks = 1 ∧ .finished ∉ journal ∧ .appShutdownReturned ∈ journal

namespace Ending

variable {returned returned' : List InitResult} {complete emitted : Bool} {callbacks : Nat}

theorem note (h : Ending returned complete emitted callbacks journal) (hresult : n ≠ .shutdownResult)
    (hfinished : n ≠ .finished) : Ending returned complete emitted callbacks (n :: journal) where
  returned hmem := List.mem_cons_of_mem _ (h.returned hmem)
  complete hcomplete := List.mem_cons_of_mem _ (h.complete hcomplete)
  silent hemitted := by
    obtain ⟨h1, h2, h3⟩ := h.silent hemitted
    exact ⟨List.not_mem_cons_of_ne_of_not_mem hresult.symm h1,
      List.not_mem_cons_of_ne_of_not_mem hfinished.symm h2, h3⟩
  callback hcallbacks := by
    obtain ⟨h1, h2, h3⟩ := h.callback hcallbacks
    exact ⟨h1, List.not_mem_cons_of_ne_of_not_mem hfinished.symm h2, List.mem_cons_of_mem _ h3⟩

theorem returns (h : Ending returned complete emitted callbacks journal)
    (hmem : .completed true ∈ returned' → .completed true ∈ returned ∨ .appShutdownReturned ∈ journal) :
    Ending returned' complete emitted callbacks journal :=
  ⟨fun hcompleted => (hmem hcompleted).elim h.returned id, h.complete, h.silent, h.callback⟩

end Ending

theorem mem_returned_ends {Task Stage Result : Type} {e : Executor Task Stage Result} {r result : Result}
    (h : r ∈ (e.ends result).returned) : r ∈ e.returned ∨ r = result := by
  unfold Executor.ends at h
  dsimp only at h
  split at h
  · cases h
  · exact (List.mem_append.mp h).imp_right List.mem_singleton.mp

theorem returned_submit {Task Stage Result : Type} (e : Executor Task Stage Result) (task : Task) :
    (e.submit task).returned = e.returned := by
  unfold Executor.submit
  split
  · rfl
  · rfl

/-! ## Every step -/

structure Inv (before after : Nat) (s : System) : Prop where
  coordinated : Coordinated before after s.coordinator s.executor.m_interrupt_requested
    s.executor.m_shutdown_requested s.to_begin s.journal
  interrupting : Interrupting s.executor.m_interrupt_executor s.executor.m_interrupt_requested s.journal
  initializing : Initializing s.executor.m_init_and_shutdown_executor s.executor.m_worker_state
    s.executor.m_initialize_requested s.executor.m_shutdown_requested s.journal
  ending : Ending s.executor.m_init_and_shutdown_executor.returned s.executor.m_app_shutdown_complete
    s.executor.m_shutdown_result_emitted s.callbacks s.journal
  keeps : Keeps (Ordered before after) s.journal

namespace Inv

theorem start (subscribes : Bool) : Inv before after (start subscribes) where
  coordinated := .start
  interrupting := ⟨by simp [Shutdown.start], (fun h => nomatch h)⟩
  initializing := .start subscribes
  ending := ⟨(fun h => nomatch h), (fun h => nomatch h), fun _ => ⟨by simp [Shutdown.start], by
    simp [Shutdown.start], rfl⟩, fun h => absurd rfl h⟩
  keeps := trivial

theorem initializeNode (h : Inv before after s) :
    Inv before after { s with executor := s.executor.initializeNode } := by
  unfold QmlInitExecutor.initializeNode
  split
  · exact h
  next hnone =>
    simp only [Bool.or_eq_true, not_or, Bool.not_eq_true] at hnone
    have hinitializing := h.initializing
    rw [hnone.1.1, hnone.1.2] at hinitializing
    have hsubmit := hinitializing.submit_initialize
    rw [← hnone.1.2] at hsubmit
    exact ⟨h.coordinated, h.interrupting, hsubmit,
      h.ending.returns fun hmem => .inl (by rwa [returned_submit] at hmem), h.keeps⟩

theorem interrupt (h : Inv before after s) (hrequested : s.coordinator.m_shutdown_requested = true)
    (hbefore : s.coordinator.m_draining_before_interrupt = false)
    (hall : left true before s.coordinator.completed = ∅) :
    Inv before after { s with executor := s.executor.interrupt } := by
  unfold QmlInitExecutor.interrupt
  split
  · exact h
  next hnone =>
    simp only [Bool.or_eq_true, not_or, Bool.not_eq_true] at hnone
    have hc := h.coordinated
    refine ⟨⟨fun hunrequested => ?_, fun hdraining => ?_, fun hdraining => ?_, hc.waits, fun _ => hall,
      hc.shut_down, hc.completed, hc.registered⟩, h.interrupting.submit, h.initializing.of_eq true rfl rfl,
      h.ending, h.keeps⟩
    · exact absurd (hrequested.symm.trans hunrequested) (by decide)
    · exact absurd (hbefore.symm.trans hdraining) (by decide)
    · exact ⟨rfl, (hc.draining_after hdraining).2⟩

theorem shutdown (h : Inv before after s) (hafter : s.coordinator.m_draining_after_interrupt = true)
    (hall : left false after s.coordinator.completed = ∅) :
    Inv before after { s with executor := s.executor.shutdown } := by
  unfold QmlInitExecutor.shutdown
  split
  · exact h
  next hnone =>
    simp only [Bool.or_eq_true, not_or, Bool.not_eq_true] at hnone
    have hc := h.coordinated
    have hinitializing := h.initializing
    rw [hnone.1] at hinitializing
    exact ⟨⟨hc.unrequested, hc.draining_before, hc.draining_after, hc.waits, hc.interrupted,
      fun _ => ⟨hafter, hall⟩, hc.completed, hc.registered⟩, h.interrupting,
      hinitializing.submit_shutdown.of_eq true rfl rfl,
      h.ending.returns fun hmem => .inl (by rwa [returned_submit] at hmem), h.keeps⟩

theorem requestShutdown (h : Inv before after s) : Inv before after (s.requestShutdown before) := by
  unfold System.requestShutdown
  split
  · exact h
  next hnone =>
    have hrequested : s.coordinator.m_shutdown_requested = false := by simpa using hnone
    have hrequest := h.coordinated.request hrequested
    dsimp only
    split
    next hzero =>
      have hcompleted := (h.coordinated.unrequested hrequested).1
      have hbefore := (h.coordinated.unrequested hrequested).2.1
      subst hzero
      refine Inv.interrupt (s := { s with coordinator := { s.coordinator with
        m_shutdown_requested := true, m_pending_participants := (0 : Nat) } }) ⟨?_, h.interrupting,
        h.initializing, h.ending, h.keeps⟩ rfl hbefore (by simp [left])
      have hrequest : Coordinated 0 after { s.coordinator with
          m_shutdown_requested := true
          m_pending_participants := (0 : Nat)
          m_draining_before_interrupt := false } _ _ _ _ := hrequest
      rw [← hbefore] at hrequest
      exact hrequest
    next hpositive =>
      rw [decide_eq_true hpositive] at hrequest
      exact ⟨hrequest, h.interrupting, h.initializing, h.ending, h.keeps⟩

theorem begin (h : Inv before after s) : Inv before after s.begin := by
  unfold System.begin
  split
  next p to_begin hto_begin =>
    have hc := h.coordinated
    rw [hto_begin] at hc
    exact ⟨hc.begin, h.interrupting.note, h.initializing.note id, h.ending.note nofun nofun,
      h.keeps.write trivial⟩
  next => exact h

theorem handleSignal (h : Inv before after s) {p : Participant} (hbegun : .begun p ∈ s.journal)
    (hsignalled : .signalled p ∈ s.journal) : Inv before after (s.handleSignal p) := by
  unfold System.handleSignal
  dsimp only
  generalize hphase : (if p.before_interrupt = true then s.coordinator.m_draining_before_interrupt
    else s.coordinator.m_draining_after_interrupt) = draining
  split
  · exact h
  next hnone =>
    simp only [Bool.or_eq_true, not_or, Bool.not_eq_true, Bool.not_eq_false', decide_eq_true_eq] at hnone
    have hdraining := hphase.trans hnone.1
    have hnew := hnone.2
    have hcomplete := h.coordinated.complete hdraining hnew hbegun hsignalled
    unfold System.participantFinished
    dsimp only
    split
    next => exact ⟨hcomplete, h.interrupting, h.initializing, h.ending, h.keeps⟩
    next hzero =>
    have hzero := not_not.mp hzero
    split
    next hp =>
      rw [if_pos hp] at hdraining
      obtain ⟨hend, hall⟩ := hcomplete.end_before hdraining hzero
      have hrequested : s.coordinator.m_shutdown_requested = true := by
        by_contra hrequested
        have := (h.coordinated.unrequested (Bool.not_eq_true _ ▸ hrequested)).2.1
        exact absurd (this.symm.trans hdraining) (by decide)
      exact Inv.interrupt (s := { s with coordinator := { s.coordinator with
        completed := insert p s.coordinator.completed
        m_pending_participants := s.coordinator.m_pending_participants - 1
        m_draining_before_interrupt := false } }) ⟨hend, h.interrupting, h.initializing, h.ending, h.keeps⟩
        hrequested rfl hall
    next hp =>
      rw [if_neg hp] at hdraining
      have hall := (hcomplete.draining_after hdraining).2.2
      exact Inv.shutdown (s := { s with coordinator := { s.coordinator with
        completed := insert p s.coordinator.completed
        m_pending_participants := s.coordinator.m_pending_participants - 1 } })
        ⟨hcomplete, h.interrupting, h.initializing, h.ending, h.keeps⟩ hdraining
        (Finset.card_eq_zero.mp (Int.natCast_eq_zero.mp (hall.symm.trans hzero)))

/-! ### The worker of the initialisation and the shutdown -/

theorem unsubscribe (h : Inv before after s) (hsubscription : s.executor.m_worker_state.subscription = true) :
    Inv before after (s.note .unsubscribed) :=
  ⟨h.coordinated.note nofun, h.interrupting.note, h.initializing.unsubscribe, h.ending.note nofun nofun,
    h.keeps.write (h.initializing.subscribed hsubscription)⟩

/-- The shutdown waited, so both phases are over and the initialisation has returned. -/
theorem takeShutdown (h : Inv before after s) {waiting : List InitTask}
    (hwaiting : s.executor.m_init_and_shutdown_executor.waiting = .shutdown :: waiting)
    (hrunning : s.executor.m_init_and_shutdown_executor.running = none)
    (hthrew : s.executor.m_worker_state.initialization_threw ≠ true)
    (hsubscription : .subscribed ∈ s.journal → .unsubscribed ∈ s.journal) :
    Inv before after ({ s with executor := { s.executor with
      m_worker_state := { s.executor.m_worker_state with
        subscription := false
        pending_subscription_factory := false }
      m_init_and_shutdown_executor := { s.executor.m_init_and_shutdown_executor with
        waiting
        running := some .appShutdown } } }.note .appShutdown) := by
  obtain ⟨hrequested, hshutdown⟩ := h.initializing.shutdown_waiting
    (by rw [hwaiting]; exact List.mem_cons_self)
  obtain ⟨hdraining, hall⟩ := h.coordinated.shut_down hrequested
  refine ⟨h.coordinated.note nofun, h.interrupting.note,
    h.initializing.take_shutdown hwaiting hrunning hsubscription, h.ending.note nofun nofun,
    h.keeps.write ⟨hshutdown, (h.coordinated.draining_after hdraining).2.1, fun i hi => ?_, fun hmem => ?_,
      hsubscription⟩⟩
  · obtain ⟨hbegun, hsignalled, -⟩ := h.coordinated.completed _ (left_eq_empty.mp hall i hi)
    exact ⟨hbegun, hsignalled⟩
  · exact (h.initializing.idle (.inl hrunning) hmem).resolve_right hthrew

theorem takeInit (h : Inv before after s) (throws : Bool) : Inv before after (s.takeInit throws) := by
  unfold System.takeInit
  dsimp only
  split
  next waiting hrunning hwaiting =>
    obtain ⟨htake, hrule⟩ := h.initializing.take_initialize hwaiting
    exact ⟨h.coordinated.note nofun, h.interrupting.note, htake, h.ending.note nofun nofun,
      h.keeps.write hrule⟩
  next waiting hrunning hwaiting =>
    split
    · exact ⟨h.coordinated, h.interrupting, h.initializing.skip_shutdown hwaiting hrunning _,
        h.ending.returns fun hmem => (mem_returned_ends hmem).imp_right (nomatch ·), h.keeps⟩
    next hthrew =>
    split
    · exact ⟨h.coordinated, h.interrupting, h.initializing.skip_shutdown hwaiting hrunning _,
        h.ending.returns fun hmem => (mem_returned_ends hmem).imp_right (nomatch ·), h.keeps⟩
    unfold System.retireSubscription
    dsimp only
    split
    next hsubscription =>
      exact (h.unsubscribe hsubscription).takeShutdown hwaiting hrunning hthrew fun _ => List.mem_cons_self
    next hsubscription =>
      exact h.takeShutdown hwaiting hrunning hthrew fun hmem =>
        (h.initializing.subscription hmem).resolve_left hsubscription
  next => exact h

theorem appInitMainReturns (h : Inv before after s) (success : Bool) :
    Inv before after (s.appInitMainReturns success) := by
  unfold System.appInitMainReturns
  dsimp only
  split
  next hrunning =>
    exact ⟨h.coordinated.note nofun, h.interrupting.note, h.initializing.main_returned hrunning success,
      h.ending.note nofun nofun, h.keeps.write trivial⟩
  next => exact h

theorem initializationThrew (h : Inv before after s) : Inv before after s.initializationThrew :=
  ⟨h.coordinated, h.interrupting, h.initializing.threw,
    h.ending.returns fun hmem => (mem_returned_ends hmem).imp_right (nomatch ·), h.keeps⟩

theorem appInitMainThrows (h : Inv before after s) : Inv before after s.appInitMainThrows := by
  unfold System.appInitMainThrows
  split
  · exact h.initializationThrew
  · exact h

theorem subscribe (h : Inv before after s) (node_shutdown_requested throws : Bool) :
    Inv before after (s.subscribe node_shutdown_requested throws) := by
  unfold System.subscribe
  dsimp only
  split
  next success hrunning =>
    split
    next hsubscribes =>
      simp only [Bool.and_eq_true] at hsubscribes
      split
      · exact Inv.initializationThrew (s := { s with executor := { s.executor with
          m_worker_state := { s.executor.m_worker_state with pending_subscription_factory := false } } })
          ⟨h.coordinated, h.interrupting, h.initializing.exchange, h.ending, h.keeps⟩
      · exact ⟨h.coordinated.note nofun, h.interrupting.note, h.initializing.subscribe hrunning,
          h.ending.note nofun nofun, h.keeps.write ⟨h.initializing.factory hsubscribes.1.1.2,
            h.initializing.initializing _ hrunning (nomatch ·)⟩⟩
    next =>
      split
      · exact h.initializationThrew
      · exact ⟨h.coordinated, h.interrupting, h.initializing.to_results hrunning, h.ending, h.keeps⟩
  next => exact h

theorem results (h : Inv before after s) (throws : Bool) : Inv before after (s.results throws) := by
  unfold System.results
  split
  next hrunning =>
    split
    · exact h.initializationThrew
    · exact ⟨h.coordinated, h.interrupting,
        h.initializing.ends (fun _ => .inl (h.initializing.returned _ hrunning (nomatch ·) (nomatch ·))) _,
        h.ending.returns fun hmem => (mem_returned_ends hmem).imp_right (nomatch ·), h.keeps⟩
  next => exact h

theorem appShutdownReturns (h : Inv before after s) : Inv before after s.appShutdownReturns := by
  unfold System.appShutdownReturns
  split
  next hrunning =>
    exact ⟨h.coordinated.note nofun, h.interrupting.note,
      (h.initializing.ends (h.initializing.idle (.inr hrunning)) _).note id,
      (h.ending.note (n := .appShutdownReturned) nofun nofun).returns fun hmem =>
        (mem_returned_ends hmem).imp_right fun _ => List.mem_cons_self,
      h.keeps.write trivial⟩
  next => exact h

theorem appShutdownThrows (h : Inv before after s) : Inv before after s.appShutdownThrows := by
  unfold System.appShutdownThrows
  split
  next hrunning =>
    exact ⟨h.coordinated, h.interrupting, h.initializing.ends (h.initializing.idle (.inr hrunning)) _,
      h.ending.returns fun hmem => (mem_returned_ends hmem).imp_right (nomatch ·), h.keeps⟩
  next => exact h

theorem handleRunawayException (h : Inv before after s) : Inv before after s.handleRunawayException :=
  ⟨h.coordinated, h.interrupting, h.initializing, h.ending, h.keeps⟩

theorem collect (h : Inv before after s) {result : InitResult} {returned : List InitResult}
    (hreturned : s.executor.m_init_and_shutdown_executor.returned = result :: returned) :
    Inv before after (s.withInit { s.executor.m_init_and_shutdown_executor with returned }) :=
  ⟨h.coordinated, h.interrupting, h.initializing.of_eq _ rfl rfl,
    h.ending.returns fun hmem => .inl (by rw [hreturned]; exact List.mem_cons_of_mem _ hmem), h.keeps⟩

theorem collectInit (h : Inv before after s) : Inv before after s.collectInit := by
  unfold System.collectInit
  dsimp only
  split
  next returned hreturned => exact h.collect hreturned
  next completed returned hreturned =>
    have hcollect := h.collect hreturned
    unfold System.shutdownDone
    split
    · exact hcollect
    next hcompleted =>
      have hdone : .appShutdownReturned ∈ s.journal := by
        refine h.ending.returned ?_
        rw [hreturned, show completed = true by simpa using hcompleted]
        exact List.mem_cons_self
      have hending := hcollect.ending
      exact ⟨hcollect.coordinated, hcollect.interrupting.shutdown, hcollect.initializing.of_eq _ rfl rfl,
        ⟨(fun hmem => nomatch hmem), fun _ => hdone, hending.silent, hending.callback⟩, hcollect.keeps⟩
  next returned hreturned => exact (h.collect hreturned).handleRunawayException
  next => exact h

theorem finishShutdown (h : Inv before after s) : Inv before after s.finishShutdown := by
  unfold System.finishShutdown
  split
  · exact h
  next hnone =>
  split
  · exact h
  next =>
    simp only [Bool.or_eq_true, not_or, Bool.not_eq_true, Bool.not_eq_false'] at hnone
    obtain ⟨⟨-, hcomplete⟩, hemitted⟩ := hnone
    have hdone := h.ending.complete hcomplete
    obtain ⟨hresult, hfinished, hcallbacks⟩ := h.ending.silent hemitted
    refine ⟨h.coordinated.note nofun, h.interrupting.note, h.initializing.note id, ⟨?_, ?_, ?_, ?_⟩,
      h.keeps.write ⟨hresult, hdone⟩⟩
    · exact fun hmem => List.mem_cons_of_mem _ (h.ending.returned hmem)
    · exact fun _ => List.mem_cons_of_mem _ hdone
    · exact fun hemitted => nomatch hemitted
    · exact fun _ => ⟨congrArg (· + 1) hcallbacks, by simpa [System.note] using hfinished,
        List.mem_cons_of_mem _ hdone⟩

theorem drainInit (h : Inv before after s) : Inv before after s.drainInit := by
  unfold System.drainInit
  dsimp only
  split
  · exact Inv.finishShutdown ⟨h.coordinated, h.interrupting, h.initializing.of_eq _ rfl rfl, h.ending, h.keeps⟩
  · exact h

/-! ### The worker of the interruption -/

theorem takeInterrupt (h : Inv before after s) : Inv before after s.takeInterrupt := by
  unfold System.takeInterrupt
  dsimp only
  split
  next waiting hrunning hwaiting =>
    have hrequested : s.executor.m_interrupt_requested = true :=
      h.interrupting.busy (.inl (by rw [hwaiting]; simp))
    have hall := left_eq_empty.mp (h.coordinated.interrupted hrequested)
    refine ⟨h.coordinated.note nofun, ?_, h.initializing.note id, h.ending.note nofun nofun,
      h.keeps.write fun i hi => ?_⟩
    · exact ⟨fun _ => hrequested, fun hmem => List.mem_cons_of_mem _ (h.interrupting.interrupted hmem)⟩
    · obtain ⟨hbegun, hsignalled, -⟩ := h.coordinated.completed _ (hall i hi)
      exact ⟨hbegun, hsignalled⟩
  next => exact h

theorem startShutdownReturns (h : Inv before after s) (throws : Bool) :
    Inv before after (s.startShutdownReturns throws) := by
  unfold System.startShutdownReturns
  dsimp only
  split
  next hrunning =>
    exact ⟨h.coordinated.note nofun,
      h.interrupting.note.ends (by rw [hrunning]; simp) fun _ => List.mem_cons_self,
      h.initializing.note id, h.ending.note nofun nofun, h.keeps.write trivial⟩
  next => exact h

theorem startShutdownThrows (h : Inv before after s) : Inv before after s.startShutdownThrows := by
  unfold System.startShutdownThrows
  dsimp only
  split
  next hrunning =>
    exact ⟨h.coordinated, h.interrupting.ends (by rw [hrunning]; simp) (nomatch ·), h.initializing, h.ending,
      h.keeps⟩
  next => exact h

theorem drainAfterInterrupt (h : Inv before after s) (hinterrupt : s.executor.m_interrupt_requested = true)
    (hreturned : .startShutdownReturned ∈ s.journal) : Inv before after (s.drainAfterInterrupt after) := by
  unfold System.drainAfterInterrupt
  split
  · exact h
  next hdraining =>
    have hdraining : s.coordinator.m_draining_after_interrupt = false := by simpa using hdraining
    have hdrain := h.coordinated.drain_after hinterrupt hreturned hdraining
    dsimp only
    split
    next hzero =>
      subst hzero
      exact Inv.shutdown (s := { s with coordinator := { s.coordinator with
        m_draining_after_interrupt := true, m_pending_participants := (0 : Nat) } })
        ⟨hdrain, h.interrupting, h.initializing, h.ending, h.keeps⟩ rfl (by simp [left])
    next => exact ⟨hdrain, h.interrupting, h.initializing, h.ending, h.keeps⟩

theorem collectInterrupt (h : Inv before after s) : Inv before after (s.collectInterrupt after) := by
  have hcollect {result : InterruptResult} {returned : List InterruptResult}
      (hreturned : s.executor.m_interrupt_executor.returned = result :: returned) :
      Inv before after (s.withInterrupt { s.executor.m_interrupt_executor with returned }) := by
    refine ⟨h.coordinated, ⟨fun _ => ?_, fun hmem => ?_⟩, h.initializing, h.ending, h.keeps⟩
    · exact h.interrupting.busy (.inr (.inr (by rw [hreturned]; simp)))
    · exact h.interrupting.interrupted (by rw [hreturned]; exact List.mem_cons_of_mem _ hmem)
  unfold System.collectInterrupt
  dsimp only
  split
  next returned hreturned =>
    split
    · refine (hcollect hreturned).drainAfterInterrupt ?_ ?_
      · exact h.interrupting.busy (.inr (.inr (by rw [hreturned]; simp)))
      · exact h.interrupting.interrupted (by rw [hreturned]; exact List.mem_cons_self)
    · exact hcollect hreturned
  next returned hreturned => exact (hcollect hreturned).handleRunawayException
  next => exact h

theorem drainInterrupt (h : Inv before after s) : Inv before after s.drainInterrupt := by
  unfold System.drainInterrupt
  dsimp only
  split
  · exact Inv.finishShutdown ⟨h.coordinated, ⟨h.interrupting.busy, h.interrupting.interrupted⟩, h.initializing,
      h.ending, h.keeps⟩
  · exact h

theorem allDrained (h : Inv before after s) : Inv before after s.allDrained := by
  unfold System.allDrained
  split
  next callbacks hcallbacks =>
    obtain ⟨hone, hfinished, hdone⟩ := h.ending.callback (by rw [hcallbacks]; simp)
    have hemitted : s.executor.m_shutdown_result_emitted = true := by
      by_contra hemitted
      have := (h.ending.silent (by simpa using hemitted)).2.2
      omega
    refine ⟨h.coordinated.note nofun, h.interrupting.note, h.initializing.note id, ⟨?_, ?_, ?_, ?_⟩,
      h.keeps.write ⟨hfinished, hdone⟩⟩
    · exact fun hmem => List.mem_cons_of_mem _ (h.ending.returned hmem)
    · exact fun hcomplete => List.mem_cons_of_mem _ (h.ending.complete hcomplete)
    · exact fun hfalse => absurd (hemitted.symm.trans hfalse) (by decide)
    · intro hcallback
      have hcallback : callbacks ≠ 0 := hcallback
      omega
  next => exact h

end Inv

/-! ## Runs -/

/-- A participant signals only after it was begun. -/
def Begun (s : System) : Event → Prop
  | .signal participant => .begun participant ∈ s.journal
  | _ => True

theorem Inv.step (h : Inv before after s) {e : Event} (he : Begun s e) :
    Inv before after (step before after s e) := by
  cases e with
  | initializeNode => exact h.initializeNode
  | requestShutdown => exact h.requestShutdown
  | begin => exact h.begin
  | signal p =>
    have hnote : Inv before after (s.note (.signalled p)) :=
      ⟨h.coordinated.note nofun, h.interrupting.note, h.initializing.note id, h.ending.note nofun nofun,
        h.keeps.write trivial⟩
    exact hnote.handleSignal (List.mem_cons_of_mem _ he) List.mem_cons_self
  | takeInit throws => exact h.takeInit throws
  | appInitMainReturns success => exact h.appInitMainReturns success
  | appInitMainThrows => exact h.appInitMainThrows
  | subscribe node_shutdown_requested throws => exact h.subscribe node_shutdown_requested throws
  | results throws => exact h.results throws
  | appShutdownReturns => exact h.appShutdownReturns
  | appShutdownThrows => exact h.appShutdownThrows
  | collectInit => exact h.collectInit
  | takeInterrupt => exact h.takeInterrupt
  | startShutdownReturns throws => exact h.startShutdownReturns throws
  | startShutdownThrows => exact h.startShutdownThrows
  | collectInterrupt => exact h.collectInterrupt
  | drainInit => exact h.drainInit
  | drainInterrupt => exact h.drainInterrupt
  | allDrained => exact h.allDrained

/-- What is called and emitted comes in order, and nothing counts below zero. -/
structure InOrder (before after : Nat) (s : System) : Prop where
  order : ∀ newer n older, s.journal = newer ++ n :: older → Ordered before after n older
  once : ∀ n ∈ [Note.appShutdown, .subscribed, .shutdownResult, .finished], s.journal.count n ≤ 1
  pending : 0 ≤ s.coordinator.m_pending_participants

theorem inOrder_run {subscribes : Bool} (h : Reaches (step before after) Begun (start subscribes) s) :
    InOrder before after s := by
  have hinv : Inv before after s := h.invariant (.start subscribes) fun _ _ hs he => hs.step he
  refine ⟨fun newer n older hjournal => ?_, fun n hn => ?_, hinv.coordinated.pending_nonneg⟩
  · have hkeeps := hinv.keeps
    rw [hjournal] at hkeeps
    exact hkeeps.rule
  · refine hinv.keeps.count_le_one fun older hrule => ?_
    simp only [List.mem_cons, List.not_mem_nil, or_false] at hn
    rcases hn with rfl | rfl | rfl | rfl
    all_goals exact hrule.1

/-- The node starts, and with one participant in each phase it shuts down. -/
def wholeRun : List Event :=
  [.initializeNode, .takeInit false, .appInitMainReturns true, .subscribe false false, .results false,
    .collectInit, .requestShutdown, .begin, .signal ⟨true, 0⟩, .takeInterrupt, .startShutdownReturns false,
    .collectInterrupt, .begin, .signal ⟨false, 0⟩, .takeInit false, .appShutdownReturns, .collectInit,
    .drainInit, .drainInterrupt, .allDrained]

theorem inOrder_run_finished : InOrder 1 1 (wholeRun.foldl (step 1 1) (start true)) := by
  have hstart : Reaches (step 1 1) Begun (start true) (start true) := .refl
  refine inOrder_run (hstart.play ?_)
  refine ⟨trivial, trivial, trivial, trivial, trivial, trivial, trivial, trivial, ?_, trivial, trivial,
    trivial, trivial, ?_, trivial, trivial, trivial, trivial, trivial, trivial, trivial⟩
  · exact List.mem_cons_self
  · exact List.mem_cons_self

example : .finished ∈ (wholeRun.foldl (step 1 1) (start true)).journal := by decide

end GuiQml.Shutdown
