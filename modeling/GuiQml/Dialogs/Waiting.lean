import GuiQml.Dialogs.Model
import GuiQml.Lib.Reach
import Mathlib.Data.List.Count
import Mathlib.Data.List.GetD
import Mathlib.Data.List.Range

/-!
# The callers that wait

Whatever comes while callers wait, dialogs are shown in the order of the calls, each is answered once, and a
caller returns the answer to its own dialog.
-/

namespace GuiQml.Dialogs

def RuntimeDialogRequest.blocking (ui : CClientUIInterface) (request : RuntimeDialogRequest) : Bool :=
  isBlocking ui request.style request.question

/-- The call that waits here. -/
def Frame.caller : Frame → Option Nat
  | .exec request _ => some request
  | .shown request true => some request
  | .shown _ false | .answered | .cancelling | .requestedShutdown => none

def Returned.caller : Returned → Option Nat
  | .answer request _ => some request
  | .at_once => none

namespace Gui

variable {ui : CClientUIInterface} {trimmed : String → String} {g : Gui}

def request (g : Gui) (r : Nat) : RuntimeDialogRequest := g.requests.getD r {}

def answered (g : Gui) : List Nat := g.answers.map Prod.fst

/-- What was shown are the first calls, in their order, and all but the last of them are answered. -/
structure InOrder (ui : CClientUIInterface) (g : Gui) : Prop where
  queue_nil : g.model.m_runtime_dialog_active = none → g.model.m_runtime_dialog_queue = []
  arrival : g.shown ++ g.model.m_runtime_dialog_queue = List.range g.requests.length
  answered : g.answered ++ g.model.m_runtime_dialog_active.toList = g.shown
  visible : g.model.m_runtime_dialog_visible = g.model.m_runtime_dialog_active.isSome
  dialog : ∀ r, g.model.m_runtime_dialog_active = some r → g.model.m_runtime_dialog = (g.request r).dialog ui

/-- A request holds its own answer, and so does what its call has returned. -/
structure Told (ui : CClientUIInterface) (g : Gui) : Prop where
  answer : ∀ r b, (r, b) ∈ g.answers →
    (g.request r).answered = true ∧ (g.request r).button = b ∧ (g.request r).answer = (b == ui.BTN_OK)
  unanswered : ∀ r, r ∉ g.answered → (g.request r).answered = false
  returned : ∀ r v, .answer r v ∈ g.returned → ∃ b, (r, b) ∈ g.answers ∧ v = (b == ui.BTN_OK)

/-- A blocking call is on the stack or has returned, once, and a loop goes on until the answer. -/
structure Waits (ui : CClientUIInterface) (g : Gui) : Prop where
  loop : ∀ r ∈ g.frames.filterMap Frame.caller, (g.request r).loop = true
  quits : ∀ r quit, .exec r quit ∈ g.frames → (quit = true ↔ r ∈ g.answered)
  calls : ∀ r, (g.frames.filterMap Frame.caller).count r + (g.returned.filterMap Returned.caller).count r =
    ((g.request r).blocking ui).toNat

structure Sound (ui : CClientUIInterface) (g : Gui) : Prop extends InOrder ui g, Told ui g, Waits ui g

/-! ## Requests -/

theorem request_modify {β : Type} (p : RuntimeDialogRequest → β) {f : RuntimeDialogRequest → RuntimeDialogRequest}
    (hf : ∀ request, p (f request) = p request) (requests : List RuntimeDialogRequest) (k r : Nat) :
    p ((requests.modify k f).getD r {}) = p (requests.getD r {}) := by
  rw [List.getD_eq_getElem?_getD, List.getD_eq_getElem?_getD, List.getElem?_modify]
  cases requests[r]? with
  | none => rfl
  | some request =>
    by_cases hk : k = r
    · simp [hk, hf]
    · simp [hk]

theorem request_modify_ne (f : RuntimeDialogRequest → RuntimeDialogRequest) (requests : List RuntimeDialogRequest)
    {k r : Nat} (h : r ≠ k) : (requests.modify k f).getD r {} = requests.getD r {} := by
  rw [List.getD_eq_getElem?_getD, List.getD_eq_getElem?_getD, List.getElem?_modify]
  cases requests[r]? <;> simp [h.symm]

theorem request_modify_self (f : RuntimeDialogRequest → RuntimeDialogRequest)
    {requests : List RuntimeDialogRequest} {k : Nat} (h : k < requests.length) :
    (requests.modify k f).getD k {} = f (requests.getD k {}) := by
  simp [List.getD_eq_getElem?_getD, h]

theorem request_concat (requests : List RuntimeDialogRequest) (request : RuntimeDialogRequest) (r : Nat) :
    (requests ++ [request]).getD r {} =
      if r = requests.length then request else requests.getD r {} := by
  by_cases hr : r < requests.length
  · rw [if_neg hr.ne, List.getD_append _ _ _ _ hr]
  · rw [List.getD_append_right _ _ _ _ (Nat.le_of_not_lt hr)]
    by_cases hlast : r = requests.length
    · simp [hlast]
    · rw [if_neg hlast, List.getD_eq_default _ _ (by simp; omega), List.getD_eq_default _ _ (by omega)]

theorem blocking_default (ui : CClientUIInterface) : RuntimeDialogRequest.blocking ui {} = false := by
  simp [RuntimeDialogRequest.blocking, isBlocking]

theorem lt_of_blocking {r : Nat} (h : (g.request r).blocking ui = true) : r < g.requests.length := by
  by_contra hr
  rw [request, List.getD_eq_default _ _ (Nat.le_of_not_lt hr), blocking_default] at h
  cases h

/-! ## What a call does -/

section Calls

variable {g' : Gui} {x : RuntimeDialogRequest} {message : String} {style : UInt32} {question : Bool}

structure Called (ui : CClientUIInterface) (g : Gui) (x : RuntimeDialogRequest) (g' : Gui) : Prop where
  requests : g'.requests = g.requests ++ [x]
  answers : g'.answers = g.answers
  shutdown : g'.model.m_shutdown_requested = g.model.m_shutdown_requested
  busy : ∀ k, g.model.m_runtime_dialog_active = some k →
    g'.model.m_runtime_dialog_active = some k ∧ g'.shown = g.shown ∧
      g'.model.m_runtime_dialog_queue = g.model.m_runtime_dialog_queue ++ [g.requests.length] ∧
      g'.model.m_runtime_dialog = g.model.m_runtime_dialog ∧
      g'.model.m_runtime_dialog_visible = g.model.m_runtime_dialog_visible
  idle : g.model.m_runtime_dialog_active = none →
    g'.model.m_runtime_dialog_active = some g.requests.length ∧ g'.shown = g.shown ++ [g.requests.length] ∧
      g'.model.m_runtime_dialog_queue = g.model.m_runtime_dialog_queue ∧
      g'.model.m_runtime_dialog = x.dialog ui ∧ g'.model.m_runtime_dialog_visible = true
  callers : g'.frames.filterMap Frame.caller =
    (if x.blocking ui then [g.requests.length] else []) ++ g.frames.filterMap Frame.caller
  exec : ∀ r quit, .exec r quit ∈ g'.frames → .exec r quit ∈ g.frames ∨ r = g.requests.length ∧ quit = false
  returned : g'.returned = g.returned ∨ g'.returned = g.returned ++ [.at_once]

theorem called_makeRequest (ui : CClientUIInterface) (g : Gui) (message : String) (style : UInt32)
    (question : Bool) :
    Called ui g { message := message, style := style, question := question, loop := isBlocking ui style question }
      (g.makeRequest ui message style question) := by
  have hlast (requests : List RuntimeDialogRequest) (request : RuntimeDialogRequest) :
      (requests ++ [request]).getD requests.length {} = request := by simp
  cases hactive : g.model.m_runtime_dialog_active with
  | none =>
    simp only [makeRequest, hactive, Option.isSome_none, Bool.false_eq_true, if_false, showRuntimeDialogRequest,
      hlast]
    constructor
    case callers =>
      rw [RuntimeDialogRequest.blocking]
      cases isBlocking ui style question <;> simp [Frame.caller, List.filterMap_cons]
    case exec =>
      intro r quit hmem
      exact .inl ((List.mem_cons.mp hmem).resolve_left (by simp))
    all_goals simp [hactive]
  | some k =>
    simp only [makeRequest, hactive, Option.isSome_some, if_true]
    cases hblocking : isBlocking ui style question
    · simp only [Bool.false_eq_true, if_false, returnAtOnce]
      constructor
      case exec => exact fun _ _ => .inl
      all_goals simp [RuntimeDialogRequest.blocking, hblocking, hactive]
    · simp only [if_true]
      constructor
      case exec =>
        intro r quit hmem
        simp only [List.mem_cons, Frame.exec.injEq] at hmem
        exact hmem.symm
      all_goals simp [RuntimeDialogRequest.blocking, hblocking, hactive, Frame.caller]

theorem InOrder.lt_of_answered (h : InOrder ui g) {r : Nat} (hr : r ∈ g.answered) : r < g.requests.length := by
  have hshown : r ∈ g.shown := by
    rw [← h.answered]
    exact List.mem_append_left _ hr
  rw [← List.mem_range, ← h.arrival]
  exact List.mem_append_left _ hshown

theorem InOrder.lt_of_active (h : InOrder ui g) {r : Nat} (hr : g.model.m_runtime_dialog_active = some r) :
    r < g.requests.length := by
  have hshown : r ∈ g.shown := by
    rw [← h.answered, hr]
    simp
  rw [← List.mem_range, ← h.arrival]
  exact List.mem_append_left _ hshown

theorem Waits.lt_of_caller (h : Waits ui g) {r : Nat} (hr : r ∈ g.frames.filterMap Frame.caller) :
    r < g.requests.length := by
  refine @lt_of_blocking ui g r ?_
  have hcount := List.count_pos_iff.mpr hr
  have hcalls := h.calls r
  cases hblocking : (g.request r).blocking ui with
  | true => rfl
  | false =>
    rw [hblocking, Bool.toNat_false] at hcalls
    omega

theorem Called.request (h : Called ui g x g') (r : Nat) :
    g'.request r = if r = g.requests.length then x else g.request r := by
  rw [Gui.request, h.requests, request_concat, Gui.request]

theorem Called.request_of_lt (h : Called ui g x g') {r : Nat} (hr : r < g.requests.length) :
    g'.request r = g.request r := by
  rw [h.request, if_neg hr.ne]

theorem Called.answered (h : Called ui g x g') : g'.answered = g.answered := by
  rw [Gui.answered, h.answers, Gui.answered]

theorem InOrder.called (h : InOrder ui g) (hcall : Called ui g x g') : InOrder ui g' := by
  have hlength : g'.requests.length = g.requests.length + 1 := by simp [hcall.requests]
  cases hactive : g.model.m_runtime_dialog_active with
  | none =>
    obtain ⟨hactive', hshown, hqueue, hdialog, hvisible⟩ := hcall.idle hactive
    constructor
    case queue_nil => simp [hactive']
    case arrival =>
      rw [hlength, List.range_succ, ← h.arrival, hshown, hqueue, h.queue_nil hactive, List.append_nil,
        List.append_nil]
    case answered =>
      rw [hcall.answered, hactive', hshown, ← h.answered, hactive, Option.toList_none, List.append_nil,
        Option.toList_some]
    case visible => rw [hvisible, hactive', Option.isSome_some]
    case dialog =>
      intro r hr
      obtain rfl := Option.some.inj (hactive'.symm.trans hr)
      rw [hdialog, hcall.request, if_pos rfl]
  | some k =>
    obtain ⟨hactive', hshown, hqueue, hdialog, hvisible⟩ := hcall.busy k hactive
    constructor
    case queue_nil => simp [hactive']
    case arrival => rw [hlength, List.range_succ, ← h.arrival, hshown, hqueue, List.append_assoc]
    case answered => rw [hcall.answered, hactive', hshown, ← h.answered, hactive]
    case visible => rw [hvisible, hactive', h.visible, hactive]
    case dialog =>
      intro r hr
      obtain rfl := Option.some.inj (hactive'.symm.trans hr)
      rw [hdialog, h.dialog k hactive, hcall.request_of_lt (h.lt_of_active hactive)]

theorem Sound.told_called (h : Sound ui g) (hcall : Called ui g x g') (hx : x.answered = false) : Told ui g' where
  answer r b hmem := by
    rw [hcall.answers] at hmem
    rw [hcall.request_of_lt (h.lt_of_answered (List.mem_map_of_mem hmem))]
    exact h.answer r b hmem
  unanswered r hr := by
    rw [hcall.request]
    split_ifs with hlast
    · exact hx
    · exact h.unanswered r (hcall.answered ▸ hr)
  returned r v hmem := by
    rw [hcall.answers]
    refine h.returned r v ?_
    rcases hcall.returned with hreturned | hreturned
    · rwa [hreturned] at hmem
    · simpa [hreturned] using hmem

theorem Sound.waits_called (h : Sound ui g) (hcall : Called ui g x g') (hloop : x.loop = x.blocking ui) :
    Waits ui g' where
  loop r hr := by
    rw [hcall.callers, List.mem_append] at hr
    rcases hr with hr | hr
    · cases hblocking : x.blocking ui with
      | true =>
        rw [hblocking, if_pos rfl, List.mem_singleton] at hr
        rw [hcall.request, if_pos hr, hloop, hblocking]
      | false => simp [hblocking] at hr
    · rw [hcall.request_of_lt (h.lt_of_caller hr)]
      exact h.loop r hr
  quits r quit hmem := by
    rw [hcall.answered]
    rcases hcall.exec r quit hmem with hmem | ⟨rfl, rfl⟩
    · exact h.quits r quit hmem
    · refine ⟨(fun hquit => by cases hquit), fun hr => ?_⟩
      exact absurd (h.lt_of_answered hr) (Nat.lt_irrefl _)
  calls r := by
    have hreturned : g'.returned.filterMap Returned.caller = g.returned.filterMap Returned.caller := by
      rcases hcall.returned with hreturned | hreturned <;> simp [hreturned, Returned.caller]
    have hcalls := h.calls r
    rw [hcall.callers, hreturned, List.count_append, hcall.request]
    by_cases hr : r = g.requests.length
    · subst hr
      rw [request, List.getD_eq_default _ _ le_rfl, blocking_default, Bool.toNat_false] at hcalls
      rw [if_pos rfl]
      cases x.blocking ui <;> simp <;> omega
    · rw [if_neg hr, ← hcalls]
      cases x.blocking ui <;> simp [Ne.symm hr]

theorem Sound.called (h : Sound ui g) (hcall : Called ui g x g') (hloop : x.loop = x.blocking ui)
    (hx : x.answered = false) : Sound ui g' where
  toInOrder := h.toInOrder.called hcall
  toTold := h.told_called hcall hx
  toWaits := h.waits_called hcall hloop

end Calls

/-! ## What an answer does -/

section Answers

variable {g' : Gui} {r : Nat} {button : UInt32} {frame : Frame}

structure Answers (ui : CClientUIInterface) (g : Gui) (r : Nat) (button : UInt32) (frame : Frame) (g' : Gui) :
    Prop where
  active : g.model.m_runtime_dialog_active = some r
  requests : g'.requests = g.requests.modify r (setAnswer ui button)
  answers : g'.answers = g.answers ++ [(r, button)]
  frames : g'.frames = frame :: (if (g.request r).loop then quitLoop r g.frames else g.frames)
  returned : g'.returned = g.returned
  shutdown : g'.model.m_shutdown_requested = g.model.m_shutdown_requested
  next : g'.model.m_runtime_dialog_active = g.model.m_runtime_dialog_queue.head?
  queue : g'.model.m_runtime_dialog_queue = g.model.m_runtime_dialog_queue.tail
  shown : g'.shown = g.shown ++ g.model.m_runtime_dialog_queue.head?.toList
  visible : g'.model.m_runtime_dialog_visible = g.model.m_runtime_dialog_queue.head?.isSome
  dialog : ∀ k, g.model.m_runtime_dialog_queue.head? = some k →
    g'.model.m_runtime_dialog = (g'.request k).dialog ui

theorem answers_answerRuntimeDialog (ui : CClientUIInterface) (button : UInt32) (frame : Frame)
    (hactive : g.model.m_runtime_dialog_active = some r) :
    Answers ui g r button frame (g.answerRuntimeDialog ui button frame) := by
  cases hqueue : g.model.m_runtime_dialog_queue with
  | nil =>
    simp only [answerRuntimeDialog, hactive, hqueue]
    constructor <;> simp [hactive, hqueue, request]
  | cons next rest =>
    simp only [answerRuntimeDialog, hactive, hqueue, showRuntimeDialogRequest]
    constructor <;> simp [hactive, hqueue, request]

theorem Answers.answered (ha : Answers ui g r button frame g') : g'.answered = g.answered ++ [r] := by
  rw [Gui.answered, ha.answers, List.map_append, List.map_singleton, Gui.answered]

theorem Answers.request_ne (ha : Answers ui g r button frame g') {k : Nat} (hk : k ≠ r) :
    g'.request k = g.request k := by
  rw [request, ha.requests, request_modify_ne _ _ hk, request]

theorem Answers.request_eq {β : Type} (ha : Answers ui g r button frame g') (p : RuntimeDialogRequest → β)
    (hp : ∀ request, p (setAnswer ui button request) = p request) (k : Nat) :
    p (g'.request k) = p (g.request k) := by
  rw [request, ha.requests, request_modify p hp, request]

theorem InOrder.not_answered (h : InOrder ui g) (hr : g.model.m_runtime_dialog_active = some r) :
    r ∉ g.answered := by
  have hnodup : g.shown.Nodup := (h.arrival ▸ List.nodup_range).of_append_left
  rw [← h.answered, hr, Option.toList_some, List.nodup_append] at hnodup
  exact fun hmem => hnodup.2.2 r hmem r (List.mem_singleton_self r) rfl

theorem InOrder.answers (h : InOrder ui g) (ha : Answers ui g r button frame g') : InOrder ui g' where
  queue_nil hnone := by
    rw [ha.next, List.head?_eq_none_iff] at hnone
    rw [ha.queue, hnone, List.tail_nil]
  arrival := by
    rw [ha.requests, List.length_modify, ← h.arrival, ha.shown, ha.queue, List.append_assoc]
    cases g.model.m_runtime_dialog_queue <;> rfl
  answered := by rw [ha.answered, ha.next, ha.shown, ← h.answered, ha.active, Option.toList_some]
  visible := by rw [ha.visible, ha.next]
  dialog k hk := ha.dialog k (ha.next ▸ hk)

theorem Sound.told_answers (h : Sound ui g) (ha : Answers ui g r button frame g') : Told ui g' where
  answer k b hmem := by
    rw [ha.answers, List.mem_append, List.mem_singleton, Prod.mk.injEq] at hmem
    rcases hmem with hmem | ⟨rfl, rfl⟩
    · have hk : k ≠ r := by
        rintro rfl
        exact h.not_answered ha.active (List.mem_map_of_mem hmem)
      rw [ha.request_ne hk]
      exact h.answer k b hmem
    · rw [request, ha.requests, request_modify_self _ (h.lt_of_active ha.active)]
      exact ⟨rfl, rfl, rfl⟩
  unanswered k hk := by
    rw [ha.answered, List.mem_append, List.mem_singleton, not_or] at hk
    rw [ha.request_ne hk.2]
    exact h.unanswered k hk.1
  returned k v hmem := by
    obtain ⟨b, hb, hv⟩ := h.returned k v (ha.returned ▸ hmem)
    exact ⟨b, by rw [ha.answers]; exact List.mem_append_left _ hb, hv⟩

theorem filterMap_quitLoop (r : Nat) (frames : List Frame) :
    (quitLoop r frames).filterMap Frame.caller = frames.filterMap Frame.caller := by
  rw [quitLoop, List.filterMap_map]
  congr 1
  funext frame
  by_cases hframe : frame = .exec r false
  · rw [Function.comp_apply, if_pos hframe, hframe, Frame.caller, Frame.caller]
  · rw [Function.comp_apply, if_neg hframe]

theorem mem_quitLoop {k : Nat} {quit : Bool} {frames : List Frame} (h : .exec k quit ∈ quitLoop r frames) :
    k = r ∧ quit = true ∨ k ≠ r ∧ .exec k quit ∈ frames := by
  obtain ⟨frame, hmem, hframe⟩ := List.mem_map.mp h
  split_ifs at hframe with hloop
  · obtain ⟨rfl, rfl⟩ := Frame.exec.inj hframe
    exact .inl ⟨rfl, rfl⟩
  · subst hframe
    by_cases hk : k = r
    · refine .inl ⟨hk, ?_⟩
      cases quit with
      | true => rfl
      | false => exact absurd (by rw [hk]) hloop
    · exact .inr ⟨hk, hmem⟩

theorem Sound.answers_frames (h : Sound ui g) (ha : Answers ui g r button frame g') :
    g'.frames = frame :: quitLoop r g.frames := by
  rw [ha.frames]
  split_ifs with hloop
  · rfl
  · have hnone : .exec r false ∉ g.frames := by
      intro hmem
      exact hloop (h.loop r (List.mem_filterMap.mpr ⟨_, hmem, rfl⟩))
    rw [quitLoop, List.map_congr_left (g := id), List.map_id]
    intro frame hmem
    rw [if_neg (by rintro rfl; exact hnone hmem), id]

theorem Sound.waits_answers (h : Sound ui g) (ha : Answers ui g r button frame g')
    (hframe : frame = .answered ∨ frame = .cancelling) : Waits ui g' := by
  have hcallers : g'.frames.filterMap Frame.caller = g.frames.filterMap Frame.caller := by
    rw [h.answers_frames ha]
    rcases hframe with rfl | rfl <;> exact filterMap_quitLoop r g.frames
  constructor
  case loop =>
    intro k hk
    rw [ha.request_eq RuntimeDialogRequest.loop fun _ => rfl]
    exact h.loop k (hcallers ▸ hk)
  case quits =>
    intro k quit hmem
    have hmem : .exec k quit ∈ quitLoop r g.frames := by
      rw [h.answers_frames ha] at hmem
      refine (List.mem_cons.mp hmem).resolve_left ?_
      rcases hframe with rfl | rfl <;> exact fun heq => by cases heq
    rw [ha.answered, List.mem_append, List.mem_singleton]
    rcases mem_quitLoop hmem with ⟨hk, hquit⟩ | ⟨hk, hmem⟩
    · exact ⟨fun _ => .inr hk, fun _ => hquit⟩
    · rw [h.quits k quit hmem, or_iff_left hk]
  case calls =>
    intro k
    rw [hcallers, ha.returned, ha.request_eq (RuntimeDialogRequest.blocking ui) fun _ => rfl]
    exact h.calls k

theorem Sound.answers (h : Sound ui g) (ha : Answers ui g r button frame g')
    (hframe : frame = .answered ∨ frame = .cancelling) : Sound ui g' where
  toInOrder := h.toInOrder.answers ha
  toTold := h.told_answers ha
  toWaits := h.waits_answers ha hframe

end Answers

/-! ## What the stack does -/

namespace Sound

theorem returnAtOnce (h : Sound ui g) : Sound ui g.returnAtOnce where
  toInOrder := ⟨h.queue_nil, h.arrival, h.answered, h.visible, h.dialog⟩
  answer := h.answer
  unanswered := h.unanswered
  returned r v hmem := h.returned r v (by simpa [Gui.returnAtOnce] using hmem)
  loop := h.loop
  quits := h.quits
  calls r := by
    have hreturned : g.returnAtOnce.returned.filterMap Returned.caller = g.returned.filterMap Returned.caller := by
      simp [Gui.returnAtOnce, Returned.caller]
    rw [hreturned]
    exact h.calls r

theorem withFrames (h : Sound ui g) {frames : List Frame}
    (hcallers : frames.filterMap Frame.caller = g.frames.filterMap Frame.caller)
    (hquits : ∀ r quit, .exec r quit ∈ frames → (quit = true ↔ r ∈ g.answered)) :
    Sound ui (g.withFrames frames) where
  toInOrder := ⟨h.queue_nil, h.arrival, h.answered, h.visible, h.dialog⟩
  toTold := ⟨h.answer, h.unanswered, h.returned⟩
  loop r hr := h.loop r (hcallers ▸ hr)
  quits := hquits
  calls r := (congrArg (fun callers => callers.count r + _) hcallers).trans (h.calls r)

theorem answered_iff (h : Sound ui g) (r : Nat) : (g.request r).answered = true ↔ r ∈ g.answered := by
  refine ⟨fun hanswered => ?_, fun hmem => ?_⟩
  · by_contra hr
    rw [h.unanswered r hr] at hanswered
    cases hanswered
  · obtain ⟨⟨r, b⟩, hpair, rfl⟩ := List.mem_map.mp hmem
    exact (h.answer r b hpair).1

end Sound

theorem request_returnAnswer {β : Type} (p : RuntimeDialogRequest → β)
    (hp : ∀ request : RuntimeDialogRequest, p { request with loop := false } = p request) (r k : Nat) :
    p ((g.returnAnswer r).request k) = p (g.request k) :=
  request_modify p hp g.requests r k

theorem Sound.returnAnswer (h : Sound ui g) {frame : Frame} {frames : List Frame} {r : Nat}
    (hframes : g.frames = frame :: frames) (hcaller : frame.caller = some r) (hr : r ∈ g.answered) :
    Sound ui ((g.withFrames frames).returnAnswer r) := by
  have hcallers : g.frames.filterMap Frame.caller = r :: frames.filterMap Frame.caller := by
    rw [hframes, List.filterMap_cons_some hcaller]
  have hleft : r ∉ frames.filterMap Frame.caller := by
    have hcalls := h.calls r
    rw [hcallers, List.count_cons_self] at hcalls
    have hone := Bool.toNat_le ((g.request r).blocking ui)
    rw [← List.count_eq_zero]
    omega
  constructor
  case toInOrder =>
    refine ⟨h.queue_nil, ?_, h.answered, h.visible, fun k hk => ?_⟩
    · exact h.arrival.trans (congrArg List.range (List.length_modify _ _ _).symm)
    · exact (h.dialog k hk).trans (request_returnAnswer (g := g) _ (fun _ => rfl) r k).symm
  case toTold =>
    constructor
    case answer =>
      intro k b hmem
      obtain ⟨hdone, hbutton, hanswer⟩ := h.answer k b hmem
      exact ⟨(request_returnAnswer (g := g) RuntimeDialogRequest.answered (fun _ => rfl) r k).trans hdone,
        (request_returnAnswer (g := g) RuntimeDialogRequest.button (fun _ => rfl) r k).trans hbutton,
        (request_returnAnswer (g := g) RuntimeDialogRequest.answer (fun _ => rfl) r k).trans hanswer⟩
    case unanswered =>
      intro k hk
      have hdone := request_returnAnswer (g := g) RuntimeDialogRequest.answered (fun _ => rfl) r k
      exact hdone.trans (h.unanswered k hk)
    case returned =>
      intro k v hmem
      rcases List.mem_append.mp hmem with hmem | hmem
      · exact h.returned k v hmem
      · obtain ⟨rfl, rfl⟩ := Returned.answer.inj (List.mem_singleton.mp hmem)
        obtain ⟨⟨k, b⟩, hpair, rfl⟩ := List.mem_map.mp hr
        exact ⟨b, hpair, (h.answer k b hpair).2.2⟩
  case toWaits =>
    constructor
    case loop =>
      intro k hk
      have hne : k ≠ r := fun heq => hleft (heq ▸ hk)
      have hloop : (g.request k).loop = true := h.loop k (hcallers ▸ List.mem_cons_of_mem r hk)
      exact (congrArg RuntimeDialogRequest.loop (request_modify_ne _ g.requests hne)).trans hloop
    case quits =>
      intro k quit hmem
      exact h.quits k quit (hframes ▸ List.mem_cons_of_mem frame hmem)
    case calls =>
      intro k
      have hreturned : ((g.withFrames frames).returnAnswer r).returned.filterMap Returned.caller =
          g.returned.filterMap Returned.caller ++ [r] := by
        simp [Gui.returnAnswer, Gui.withFrames, Returned.caller]
      have hcalls := h.calls k
      rw [hcallers, List.count_cons] at hcalls
      rw [hreturned, List.count_append, List.count_singleton,
        request_returnAnswer (g := g.withFrames frames) (RuntimeDialogRequest.blocking ui) fun _ => rfl]
      refine Eq.trans ?_ hcalls
      exact (Nat.add_assoc _ _ _).symm.trans (Nat.add_right_comm _ _ _)

/-! ## Steps that leave the dialogs alone -/

section Quiet

variable {g' : Gui}

structure Quiet (g g' : Gui) : Prop where
  active : g'.model.m_runtime_dialog_active = g.model.m_runtime_dialog_active
  queue : g'.model.m_runtime_dialog_queue = g.model.m_runtime_dialog_queue
  visible : g'.model.m_runtime_dialog_visible = g.model.m_runtime_dialog_visible
  dialog : g'.model.m_runtime_dialog = g.model.m_runtime_dialog
  shutdown : g'.model.m_shutdown_requested = g.model.m_shutdown_requested
  requests : g'.requests = g.requests
  frames : g'.frames = g.frames
  shown : g'.shown = g.shown
  answers : g'.answers = g.answers
  returned : g'.returned = g.returned ∨ g'.returned = g.returned ++ [.at_once]

theorem Sound.quiet (h : Sound ui g) (hquiet : Quiet g g') : Sound ui g' := by
  obtain ⟨⟨_, _, _, _, _, _, _, _, _, _⟩, requests, frames, shown, answers, returned⟩ := g'
  obtain ⟨hactive, hqueue, hvisible, hdialog, -, hrequests, hframes, hshown, hanswers, hreturned⟩ := hquiet
  subst hactive hqueue hvisible hdialog hrequests hframes hshown hanswers
  rcases hreturned with hreturned | hreturned
  · subst hreturned
    exact ⟨⟨h.queue_nil, h.arrival, h.answered, h.visible, h.dialog⟩, ⟨h.answer, h.unanswered, h.returned⟩,
      ⟨h.loop, h.quits, h.calls⟩⟩
  · subst hreturned
    have hat_once := h.returnAtOnce
    exact ⟨⟨h.queue_nil, h.arrival, h.answered, h.visible, h.dialog⟩, ⟨h.answer, h.unanswered, hat_once.returned⟩,
      ⟨h.loop, h.quits, hat_once.calls⟩⟩

theorem quiet_returnAtOnce (g : Gui) : Quiet g g.returnAtOnce :=
  ⟨rfl, rfl, rfl, rfl, rfl, rfl, rfl, rfl, rfl, .inr rfl⟩

end Quiet

theorem showRuntimeDialogOnGuiThread_cases (ui : CClientUIInterface) (trimmed : String → String) (g : Gui)
    (message : String) (style : UInt32) (question : Bool) :
    Quiet g (g.showRuntimeDialogOnGuiThread ui trimmed message style question) ∨
      g.model.m_shutdown_requested = false ∧
        g.showRuntimeDialogOnGuiThread ui trimmed message style question =
          g.makeRequest ui message style question := by
  rw [showRuntimeDialogOnGuiThread]
  split_ifs with hstopped hwarning hnotice herror
  · exact .inl (quiet_returnAtOnce g)
  · exact .inl ⟨rfl, rfl, rfl, rfl, rfl, rfl, rfl, rfl, rfl, .inr rfl⟩
  · exact .inl ⟨rfl, rfl, rfl, rfl, rfl, rfl, rfl, rfl, rfl, .inr rfl⟩
  · exact .inl (quiet_returnAtOnce g)
  · rw [Bool.or_eq_true, not_or, Bool.not_eq_true] at hstopped
    exact .inr ⟨hstopped.1, rfl⟩

theorem initializeResult_cases (ui : CClientUIInterface) (trimmed : String → String) (g : Gui) :
    ∃ g' : Gui, Quiet g g' ∧ (g.initializeResult ui trimmed = g' ∨ ∃ warnings : String,
      g.initializeResult ui trimmed =
        g'.showRuntimeDialogOnGuiThread ui trimmed warnings ui.ICON_WARNING false) := by
  rw [initializeResult]
  split_ifs with hstopped
  · exact ⟨g, ⟨rfl, rfl, rfl, rfl, rfl, rfl, rfl, rfl, rfl, .inl rfl⟩, .inl rfl⟩
  · dsimp only [showStartupWarnings]
    split_ifs with hempty
    · refine ⟨_, ?_, .inl rfl⟩
      exact ⟨rfl, rfl, rfl, rfl, rfl, rfl, rfl, rfl, rfl, .inl rfl⟩
    · refine ⟨_, ?_, .inr ⟨_, rfl⟩⟩
      exact ⟨rfl, rfl, rfl, rfl, rfl, rfl, rfl, rfl, rfl, .inl rfl⟩

/-- What refused calls and requests keep. -/
structure KeptByCalls (ui : CClientUIInterface) (P : Gui → Prop) : Prop where
  quiet : ∀ {g g'}, P g → Quiet g g' → P g'
  called : ∀ {g g' x}, P g → g.model.m_shutdown_requested = false → Called ui g x g' → x.loop = x.blocking ui →
    x.answered = false → P g'

namespace KeptByCalls

variable {P : Gui → Prop}

theorem showRuntimeDialog (hP : KeptByCalls ui P) (h : P g) (message : String) (style : UInt32) (question : Bool) :
    P (g.showRuntimeDialogOnGuiThread ui trimmed message style question) := by
  rcases showRuntimeDialogOnGuiThread_cases ui trimmed g message style question with hquiet | ⟨hnot, hcall⟩
  · exact hP.quiet h hquiet
  · rw [hcall]
    exact hP.called h hnot (called_makeRequest ui g message style question) rfl rfl

theorem initializeResult (hP : KeptByCalls ui P) (h : P g) : P (g.initializeResult ui trimmed) := by
  obtain ⟨g', hquiet, hresult | ⟨warnings, hresult⟩⟩ := initializeResult_cases ui trimmed g
  · rw [hresult]
    exact hP.quiet h hquiet
  · rw [hresult]
    exact hP.showRuntimeDialog (hP.quiet h hquiet) warnings ui.ICON_WARNING false

end KeptByCalls

/-- How the innermost function goes on. -/
inductive Resumed (ui : CClientUIInterface) (g : Gui) : Gui → Prop
  | empty : g.frames = [] → Resumed ui g g
  | waits {r : Nat} {frames : List Frame} : g.frames = .exec r false :: frames → Resumed ui g g
  | returns {frame : Frame} {frames : List Frame} {r : Nat} : g.frames = frame :: frames →
      frame = .exec r true ∨ frame = .shown r true ∧ (g.request r).answered = true →
      Resumed ui g ((g.withFrames frames).returnAnswer r)
  | enters {r : Nat} {frames : List Frame} : g.frames = .shown r true :: frames → (g.request r).answered = false →
      Resumed ui g (g.withFrames (.exec r false :: frames))
  | at_once {r : Nat} {frames : List Frame} : g.frames = .shown r false :: frames →
      Resumed ui g (g.withFrames frames).returnAtOnce
  | leaves {frame : Frame} {frames : List Frame} : g.frames = frame :: frames →
      frame = .answered ∨ frame = .requestedShutdown → Resumed ui g (g.withFrames frames)
  | cancels {frames : List Frame} {r : Nat} {g' : Gui} : g.frames = .cancelling :: frames →
      Answers ui (g.withFrames frames) r ui.BTN_CANCEL .cancelling g' → Resumed ui g g'
  | cancelled {frames : List Frame} : g.frames = .cancelling :: frames → g.model.m_runtime_dialog_active = none →
      Resumed ui g (g.withFrames (.requestedShutdown :: frames))

theorem resumed (ui : CClientUIInterface) (g : Gui) : Resumed ui g (g.resume ui) := by
  cases hframes : g.frames with
  | nil =>
    rw [resume, hframes]
    exact .empty hframes
  | cons frame frames =>
    rw [resume, hframes]
    cases frame with
    | exec r quit =>
      cases quit with
      | false => exact .waits hframes
      | true => exact .returns hframes (.inl rfl)
    | shown r blocking =>
      cases blocking with
      | false => exact .at_once hframes
      | true =>
        simp only [Bool.not_true, Bool.false_eq_true, if_false]
        split_ifs with hanswered
        · exact .returns hframes (.inr ⟨rfl, hanswered⟩)
        · exact .enters hframes (Bool.not_eq_true _ ▸ hanswered)
    | answered => exact .leaves hframes (.inl rfl)
    | cancelling =>
      cases hactive : g.model.m_runtime_dialog_active with
      | none => exact .cancelled hframes hactive
      | some r => exact .cancels hframes (answers_answerRuntimeDialog ui ui.BTN_CANCEL .cancelling hactive)
    | requestedShutdown => exact .leaves hframes (.inr rfl)

/-! ## The run -/

namespace Sound

theorem keptByCalls : KeptByCalls ui (Sound ui) where
  quiet h hquiet := h.quiet hquiet
  called h _ hcall hloop hx := h.called hcall hloop hx

theorem answerRuntimeDialog (h : Sound ui g) (button : UInt32) {frame : Frame}
    (hframe : frame = .answered ∨ frame = .cancelling) : Sound ui (g.answerRuntimeDialog ui button frame) := by
  cases hactive : g.model.m_runtime_dialog_active with
  | none =>
    rw [Gui.answerRuntimeDialog, hactive]
    exact h
  | some r => exact h.answers (answers_answerRuntimeDialog ui button frame hactive) hframe

theorem requestShutdown (h : Sound ui g) : Sound ui g.requestShutdown := by
  rw [Gui.requestShutdown]
  split_ifs with hrequested
  · exact h
  · refine ⟨⟨h.queue_nil, h.arrival, h.answered, h.visible, h.dialog⟩, ⟨h.answer, h.unanswered, h.returned⟩,
      ⟨h.loop, fun r quit hmem => ?_, h.calls⟩⟩
    exact h.quits r quit ((List.mem_cons.mp hmem).resolve_left fun heq => by cases heq)

theorem pop (h : Sound ui g) {frame : Frame} {frames : List Frame} (hframes : g.frames = frame :: frames)
    (hcaller : frame.caller = none) : Sound ui (g.withFrames frames) := by
  refine h.withFrames ?_ fun r quit hmem => h.quits r quit (hframes ▸ List.mem_cons_of_mem frame hmem)
  rw [hframes, List.filterMap_cons_none hcaller]

theorem resumed {g' : Gui} (h : Sound ui g) (hresumed : Resumed ui g g') : Sound ui g' := by
  cases hresumed with
  | empty _ => exact h
  | waits _ => exact h
  | @returns frame frames r hframes hreason =>
    rcases hreason with rfl | ⟨rfl, hanswered⟩
    · exact h.returnAnswer hframes rfl ((h.quits r true (hframes ▸ List.mem_cons_self)).mp rfl)
    · exact h.returnAnswer hframes rfl ((h.answered_iff r).mp hanswered)
  | @enters r frames hframes hanswered =>
    refine h.withFrames (by rw [hframes]; rfl) fun k quit hmem => ?_
    rcases List.mem_cons.mp hmem with heq | hmem
    · obtain ⟨rfl, rfl⟩ := Frame.exec.inj heq
      refine ⟨(fun hquit => by cases hquit), fun hk => ?_⟩
      rw [(h.answered_iff k).mpr hk] at hanswered
      cases hanswered
    · exact h.quits k quit (hframes ▸ List.mem_cons_of_mem _ hmem)
  | at_once hframes => exact (h.pop hframes rfl).returnAtOnce
  | leaves hframes hframe => exact h.pop hframes (by rcases hframe with rfl | rfl <;> rfl)
  | cancels hframes ha => exact (h.pop hframes rfl).answers ha (.inr rfl)
  | @cancelled frames hframes _ =>
    have hcallers : (Frame.requestedShutdown :: frames).filterMap Frame.caller = frames.filterMap Frame.caller := rfl
    refine (h.pop hframes rfl).withFrames hcallers fun k quit hmem => ?_
    have hmem := (List.mem_cons.mp hmem).resolve_left fun heq => by cases heq
    exact h.quits k quit (hframes ▸ List.mem_cons_of_mem _ hmem)

theorem step (h : Sound ui g) (event : Event) : Sound ui (g.step ui trimmed event) := by
  cases event with
  | showRuntimeDialog message style question => exact keptByCalls.showRuntimeDialog h message style question
  | answerRuntimeDialog button => exact h.answerRuntimeDialog button (.inl rfl)
  | requestShutdown => exact h.requestShutdown
  | resume => exact h.resumed (Gui.resumed ui g)
  | initializeResult => exact keptByCalls.initializeResult h
  | beginShutdown => exact h.quiet ⟨rfl, rfl, rfl, rfl, rfl, rfl, rfl, rfl, rfl, .inl rfl⟩

theorem start (ui : CClientUIInterface) : Sound ui {} where
  queue_nil _ := rfl
  arrival := rfl
  answered := rfl
  visible := rfl
  dialog _ hr := by cases hr
  answer _ _ hmem := by cases hmem
  unanswered _ _ := rfl
  returned _ _ hmem := by cases hmem
  loop _ hmem := by cases hmem
  quits _ _ hmem := by cases hmem
  calls _ := by simp [Gui.request, blocking_default]

end Sound

theorem run_sound (ui : CClientUIInterface) (trimmed : String → String) (events : List Event) :
    Sound ui (run ui trimmed events) :=
  (Reach.Reaches.events (fun _ _ => trivial) .refl events).invariant (Sound.start ui)
    fun _ event h _ => h.step event

end Gui

end GuiQml.Dialogs
