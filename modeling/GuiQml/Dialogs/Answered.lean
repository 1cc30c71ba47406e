import GuiQml.Dialogs.Waiting

/-!
# Every dialog is answered

A shutdown leaves no dialog and nobody waiting.
-/

namespace GuiQml.Dialogs

/-- How many steps are left of a function, at most. -/
def Frame.weight : Frame → Nat
  | .exec .. | .answered | .requestedShutdown => 1
  | .shown .. | .cancelling => 2

theorem Frame.weight_pos (frame : Frame) : 0 < frame.weight := by
  cases frame <;> exact Nat.succ_pos _

namespace Gui

variable {ui : CClientUIInterface} {trimmed : String → String} {g g' : Gui}

/-! ## The loop of the shutdown -/

/-- Once the shutdown is requested, its loop runs until no dialog is left, and only answers run on top of it. -/
def Cancels (g : Gui) : Prop :=
  g.model.m_shutdown_requested = true → g.model.m_runtime_dialog_active = none ∨
    ∃ above below, g.frames = above ++ .cancelling :: below ∧ ∀ frame ∈ above, frame = .answered

namespace Cancels

theorem keptByCalls : KeptByCalls ui Cancels where
  quiet h hquiet hrequested := by
    rw [hquiet.active, hquiet.frames]
    exact h (hquiet.shutdown ▸ hrequested)
  called _ hnot hcall _ _ hrequested := by
    rw [hcall.shutdown, hnot] at hrequested
    cases hrequested

theorem requestShutdown (h : Cancels g) : Cancels g.requestShutdown := by
  rw [Gui.requestShutdown]
  split_ifs with hrequested
  · exact h
  · exact fun _ => .inr ⟨[], g.frames, rfl, List.forall_mem_nil _⟩

theorem answerRuntimeDialog (hsound : Sound ui g) (h : Cancels g) (button : UInt32) :
    Cancels (g.answerRuntimeDialog ui button .answered) := by
  cases hactive : g.model.m_runtime_dialog_active with
  | none =>
    rw [Gui.answerRuntimeDialog, hactive]
    exact h
  | some r =>
    have ha := answers_answerRuntimeDialog ui button .answered hactive
    intro hrequested
    rw [ha.shutdown] at hrequested
    rcases h hrequested with hnone | ⟨above, below, hframes, habove⟩
    · cases hactive.symm.trans hnone
    · refine .inr ⟨.answered :: quitLoop r above, quitLoop r below, ?_, ?_⟩
      · rw [hsound.answers_frames ha, hframes, quitLoop, List.map_append, List.map_cons]
        rfl
      · rw [List.forall_mem_cons]
        refine ⟨rfl, fun frame hmem => ?_⟩
        obtain ⟨inner, hinner, rfl⟩ := List.mem_map.mp hmem
        rw [habove inner hinner]
        rfl

theorem top (h : Cancels g) (hrequested : g.model.m_shutdown_requested = true) {frame : Frame}
    {frames : List Frame} (hframes : g.frames = frame :: frames) :
    g.model.m_runtime_dialog_active = none ∨ frame = .cancelling ∨ frame = .answered ∧
      ∃ above below, frames = above ++ .cancelling :: below ∧ ∀ frame ∈ above, frame = .answered := by
  rcases h hrequested with hnone | ⟨above, below, hstack, habove⟩
  · exact .inl hnone
  · rw [hframes] at hstack
    cases above with
    | nil => exact .inr (.inl (List.cons.inj hstack).1)
    | cons first above =>
      obtain ⟨rfl, rfl⟩ := List.cons.inj hstack
      rw [List.forall_mem_cons] at habove
      exact .inr (.inr ⟨habove.1, above, below, rfl, habove.2⟩)

theorem idle (h : Cancels g) (hrequested : g.model.m_shutdown_requested = true) {frame : Frame}
    {frames : List Frame} (hframes : g.frames = frame :: frames) (hcancelling : frame ≠ .cancelling)
    (hanswered : frame ≠ .answered) : g.model.m_runtime_dialog_active = none := by
  rcases h.top hrequested hframes with hnone | htop | ⟨htop, -⟩
  · exact hnone
  · exact absurd htop hcancelling
  · exact absurd htop hanswered

theorem resumed (h : Cancels g) (hresumed : Resumed ui g g') : Cancels g' := by
  intro hrequested
  cases hresumed with
  | empty _ => exact h hrequested
  | waits _ => exact h hrequested
  | returns hframes hreason =>
    refine .inl (h.idle hrequested hframes ?_ ?_)
    · rcases hreason with rfl | ⟨rfl, -⟩ <;> exact fun heq => by cases heq
    · rcases hreason with rfl | ⟨rfl, -⟩ <;> exact fun heq => by cases heq
  | enters hframes _ => exact .inl (h.idle hrequested hframes (fun heq => by cases heq) fun heq => by cases heq)
  | at_once hframes => exact .inl (h.idle hrequested hframes (fun heq => by cases heq) fun heq => by cases heq)
  | leaves hframes hframe =>
    rcases h.top hrequested hframes with hnone | rfl | ⟨-, hstack⟩
    · exact .inl hnone
    · rcases hframe with heq | heq <;> cases heq
    · exact .inr hstack
  | cancels _ ha => exact .inr ⟨[], _, ha.frames, List.forall_mem_nil _⟩
  | cancelled _ hnone => exact .inl hnone

theorem step (hsound : Sound ui g) (h : Cancels g) (event : Event) : Cancels (g.step ui trimmed event) := by
  cases event with
  | showRuntimeDialog message style question => exact keptByCalls.showRuntimeDialog h message style question
  | answerRuntimeDialog button => exact answerRuntimeDialog hsound h button
  | requestShutdown => exact h.requestShutdown
  | resume => exact h.resumed (Gui.resumed ui g)
  | initializeResult => exact keptByCalls.initializeResult h
  | beginShutdown => exact (@keptByCalls ui).quiet h ⟨rfl, rfl, rfl, rfl, rfl, rfl, rfl, rfl, rfl, .inl rfl⟩

end Cancels

theorem cancels_run (ui : CClientUIInterface) (trimmed : String → String) (events : List Event) :
    Cancels (run ui trimmed events) := by
  have hreaches : Reach.Reaches (step ui trimmed) (fun _ _ => True) {} (run ui trimmed events) :=
    Reach.Reaches.events (fun _ _ => trivial) .refl events
  refine (hreaches.invariant (I := fun g => Sound ui g ∧ Cancels g) ?_ fun g event h _ => ?_).2
  · exact ⟨Sound.start ui, fun _ => .inl rfl⟩
  · exact ⟨h.1.step event, Cancels.step h.1 h.2 event⟩

/-! ## What a step keeps -/

/-- Calls stay what they were, and what is answered stays answered. -/
structure Keeps (g g' : Gui) : Prop where
  length : g.requests.length ≤ g'.requests.length
  call : ∀ r < g.requests.length, (g'.request r).message = (g.request r).message ∧
    (g'.request r).style = (g.request r).style ∧ (g'.request r).question = (g.request r).question
  answers : g.answers <+: g'.answers
  shutdown : g.model.m_shutdown_requested = true → g'.model.m_shutdown_requested = true

namespace Keeps

theorem refl (g : Gui) : Keeps g g := ⟨le_rfl, fun _ _ => ⟨rfl, rfl, rfl⟩, List.prefix_rfl, id⟩

theorem trans {g'' : Gui} (h : Keeps g g') (h' : Keeps g' g'') : Keeps g g'' where
  length := h.length.trans h'.length
  call r hr := by
    obtain ⟨hmessage, hstyle, hquestion⟩ := h.call r hr
    obtain ⟨hmessage', hstyle', hquestion'⟩ := h'.call r (hr.trans_le h.length)
    exact ⟨hmessage'.trans hmessage, hstyle'.trans hstyle, hquestion'.trans hquestion⟩
  answers := h.answers.trans h'.answers
  shutdown := h'.shutdown ∘ h.shutdown

theorem quiet (h : Quiet g g') : Keeps g g' where
  length := by rw [h.requests]
  call r _ := by
    rw [request, h.requests]
    exact ⟨rfl, rfl, rfl⟩
  answers := by rw [h.answers]
  shutdown := by
    rw [h.shutdown]
    exact id

theorem called {x : RuntimeDialogRequest} (h : Called ui g x g') : Keeps g g' where
  length := by simp [h.requests]
  call r hr := by
    rw [h.request_of_lt hr]
    exact ⟨rfl, rfl, rfl⟩
  answers := by rw [h.answers]
  shutdown := by
    rw [h.shutdown]
    exact id

theorem ofAnswers {r : Nat} {button : UInt32} {frame : Frame} (h : Answers ui g r button frame g') :
    Keeps g g' where
  length := by rw [h.requests, List.length_modify]
  call k _ := ⟨h.request_eq _ (fun _ => rfl) k, h.request_eq _ (fun _ => rfl) k, h.request_eq _ (fun _ => rfl) k⟩
  answers := by
    rw [h.answers]
    exact List.prefix_append _ _
  shutdown := by
    rw [h.shutdown]
    exact id

theorem returnAnswer (g : Gui) (r : Nat) : Keeps g (g.returnAnswer r) where
  length := (List.length_modify _ _ _).ge
  call k _ := ⟨request_returnAnswer _ (fun _ => rfl) r k, request_returnAnswer _ (fun _ => rfl) r k,
    request_returnAnswer _ (fun _ => rfl) r k⟩
  answers := List.prefix_rfl
  shutdown := id

theorem withFrames (g : Gui) (frames : List Frame) : Keeps g (g.withFrames frames) :=
  ⟨le_rfl, fun _ _ => ⟨rfl, rfl, rfl⟩, List.prefix_rfl, id⟩

theorem keptByCalls (g : Gui) : KeptByCalls ui (Keeps g) where
  quiet h hquiet := h.trans (.quiet hquiet)
  called h _ hcall _ _ := h.trans (.called hcall)

theorem answerRuntimeDialog (ui : CClientUIInterface) (g : Gui) (button : UInt32) (frame : Frame) :
    Keeps g (g.answerRuntimeDialog ui button frame) := by
  cases hactive : g.model.m_runtime_dialog_active with
  | none =>
    rw [Gui.answerRuntimeDialog, hactive]
    exact refl g
  | some r => exact ofAnswers (answers_answerRuntimeDialog ui button frame hactive)

theorem resumed (h : Resumed ui g g') : Keeps g g' := by
  cases h with
  | empty _ => exact refl g
  | waits _ => exact refl g
  | returns _ _ => exact (withFrames g _).trans (returnAnswer _ _)
  | enters _ _ => exact withFrames g _
  | at_once _ => exact (withFrames g _).trans (quiet (quiet_returnAtOnce _))
  | leaves _ _ => exact withFrames g _
  | cancels _ ha => exact (withFrames g _).trans (ofAnswers ha)
  | cancelled _ _ => exact withFrames g _

theorem step (ui : CClientUIInterface) (trimmed : String → String) (g : Gui) (event : Event) :
    Keeps g (g.step ui trimmed event) := by
  cases event with
  | showRuntimeDialog message style question =>
    exact (keptByCalls g).showRuntimeDialog (refl g) message style question
  | answerRuntimeDialog button => exact answerRuntimeDialog ui g button .answered
  | requestShutdown =>
    rw [Gui.step, requestShutdown]
    split_ifs with hrequested
    · exact refl g
    · exact ⟨le_rfl, fun _ _ => ⟨rfl, rfl, rfl⟩, List.prefix_rfl, fun _ => rfl⟩
  | resume => exact resumed (Gui.resumed ui g)
  | initializeResult => exact (keptByCalls g).initializeResult (refl g)
  | beginShutdown => exact ⟨le_rfl, fun _ _ => ⟨rfl, rfl, rfl⟩, List.prefix_rfl, id⟩

theorem foldl (ui : CClientUIInterface) (trimmed : String → String) (g : Gui) (events : List Event) :
    Keeps g (events.foldl (Gui.step ui trimmed) g) := by
  induction events generalizing g with
  | nil => exact refl g
  | cons event events ih => exact (step ui trimmed g event).trans (ih _)

end Keeps

/-! ## Where an answer comes from -/

section Origin

variable {r : Nat} {b : UInt32}

theorem keptByCalls_answers (answers : List (Nat × UInt32)) : KeptByCalls ui (·.answers = answers) where
  quiet h hquiet := hquiet.answers.trans h
  called h _ hcall _ _ := hcall.answers.trans h

theorem Answers.origin {k : Nat} {button : UInt32} {frame : Frame} (ha : Answers ui g k button frame g')
    (h : (r, b) ∈ g'.answers) : (r, b) ∈ g.answers ∨ g.model.m_runtime_dialog_active = some r ∧ b = button := by
  rw [ha.answers, List.mem_append, List.mem_singleton, Prod.mk.injEq] at h
  rcases h with hold | ⟨rfl, rfl⟩
  · exact .inl hold
  · exact .inr ⟨ha.active, rfl⟩

theorem origin_step (ui : CClientUIInterface) (trimmed : String → String) (g : Gui) (event : Event)
    (h : (r, b) ∈ (g.step ui trimmed event).answers) :
    (r, b) ∈ g.answers ∨ b = ui.BTN_CANCEL ∨
      event = .answerRuntimeDialog b ∧ g.model.m_runtime_dialog_active = some r := by
  cases event with
  | showRuntimeDialog message style question =>
    exact .inl ((keptByCalls_answers g.answers).showRuntimeDialog rfl message style question ▸ h)
  | answerRuntimeDialog button =>
    cases hactive : g.model.m_runtime_dialog_active with
    | none =>
      rw [step, answerRuntimeDialog, hactive] at h
      exact .inl h
    | some k =>
      rcases (answers_answerRuntimeDialog ui button .answered hactive).origin h with hold | ⟨hr, rfl⟩
      · exact .inl hold
      · exact .inr (.inr ⟨rfl, hactive.symm.trans hr⟩)
  | requestShutdown =>
    rw [step, requestShutdown] at h
    split_ifs at h with hrequested
    · exact .inl h
    · exact .inl h
  | resume =>
    have hresumed := resumed ui g
    rw [step] at h
    generalize g.resume ui = g' at h hresumed
    cases hresumed with
    | cancels _ ha =>
      rcases ha.origin h with hold | ⟨-, hcancel⟩
      · exact .inl hold
      · exact .inr (.inl hcancel)
    | _ => exact .inl h
  | initializeResult => exact .inl ((keptByCalls_answers g.answers).initializeResult rfl ▸ h)
  | beginShutdown => exact .inl h

/-- An answer was there, cancels, or came while its dialog was shown. -/
theorem origin_foldl (ui : CClientUIInterface) (trimmed : String → String) (g : Gui) (events : List Event)
    (h : (r, b) ∈ (events.foldl (step ui trimmed) g).answers) :
    (r, b) ∈ g.answers ∨ b = ui.BTN_CANCEL ∨ ∃ earlier later, events = earlier ++ .answerRuntimeDialog b :: later ∧
      (earlier.foldl (step ui trimmed) g).model.m_runtime_dialog_active = some r := by
  induction events generalizing g with
  | nil => exact .inl h
  | cons event events ih =>
    rcases ih (g.step ui trimmed event) h with hmem | hcancel | ⟨earlier, later, rfl, hactive⟩
    · rcases origin_step ui trimmed g event hmem with hold | hcancel | ⟨rfl, hactive⟩
      · exact .inl hold
      · exact .inr (.inl hcancel)
      · exact .inr (.inr ⟨[], events, rfl, hactive⟩)
    · exact .inr (.inl hcancel)
    · exact .inr (.inr ⟨event :: earlier, later, rfl, hactive⟩)

end Origin

/-! ## The stack after the shutdown -/

/-- How many steps are left of what runs, at most. -/
def pending (g : Gui) : Nat :=
  (g.frames.map Frame.weight).sum + (g.model.m_runtime_dialog_active.toList.length +
    g.model.m_runtime_dialog_queue.length)

theorem map_weight_quitLoop (r : Nat) (frames : List Frame) :
    (quitLoop r frames).map Frame.weight = frames.map Frame.weight := by
  rw [quitLoop, List.map_map]
  refine List.map_congr_left fun frame _ => ?_
  rw [Function.comp_apply]
  split_ifs with hframe
  · rw [hframe, Frame.weight, Frame.weight]
  · rfl

theorem InOrder.answered_of_idle (h : InOrder ui g) (hidle : g.model.m_runtime_dialog_active = none) :
    g.answered = List.range g.requests.length := by
  rw [← h.arrival, ← h.answered, hidle, h.queue_nil hidle, Option.toList_none, List.append_nil, List.append_nil]

theorem pending_resumed (hsound : Sound ui g) (hcancels : Cancels g)
    (hrequested : g.model.m_shutdown_requested = true) (hframes : g.frames ≠ []) (h : Resumed ui g g') :
    pending g' < pending g := by
  have hdone {frame : Frame} {frames : List Frame} {r : Nat} (hstack : g.frames = frame :: frames)
      (hcaller : frame.caller = some r) : r ∈ g.answered := by
    have hidle := hcancels.idle hrequested hstack (by rintro rfl; cases hcaller) (by rintro rfl; cases hcaller)
    rw [hsound.answered_of_idle hidle, List.mem_range]
    exact hsound.lt_of_caller (List.mem_filterMap.mpr ⟨frame, hstack ▸ List.mem_cons_self, hcaller⟩)
  cases h with
  | empty hnil => exact absurd hnil hframes
  | @waits r frames hstack =>
    cases (hsound.quits r false (hstack ▸ List.mem_cons_self)).mpr (hdone hstack rfl)
  | @returns frame frames r hstack _ =>
    have hpos := frame.weight_pos
    simp only [pending, returnAnswer, withFrames, hstack, List.map_cons, List.sum_cons]
    omega
  | @enters r frames hstack hanswered =>
    rw [(hsound.answered_iff r).mpr (hdone hstack rfl)] at hanswered
    cases hanswered
  | at_once hstack =>
    simp only [pending, returnAtOnce, withFrames, hstack, List.map_cons, List.sum_cons, Frame.weight]
    omega
  | @leaves frame frames hstack _ =>
    have hpos := frame.weight_pos
    simp only [pending, withFrames, hstack, List.map_cons, List.sum_cons]
    omega
  | @cancels frames r g' hstack ha =>
    have hweights : (g'.frames.map Frame.weight).sum = (g.frames.map Frame.weight).sum := by
      rw [(hsound.pop hstack rfl).answers_frames ha, List.map_cons, map_weight_quitLoop, hstack, List.map_cons]
      rfl
    have hactive : g.model.m_runtime_dialog_active = some r := ha.active
    rw [pending, pending, hweights, ha.next, ha.queue, hactive]
    cases hqueue : g.model.m_runtime_dialog_queue <;> simp [withFrames, hqueue]
  | cancelled hstack _ =>
    simp only [pending, withFrames, hstack, List.map_cons, List.sum_cons, Frame.weight]
    omega

/-- What runs comes to its end. -/
theorem exists_drained (trimmed : String → String) (hsound : Sound ui g) (hcancels : Cancels g)
    (hrequested : g.model.m_shutdown_requested = true) :
    ∃ n, ((List.replicate n Event.resume).foldl (step ui trimmed) g).frames = [] := by
  induction hpending : pending g using Nat.strong_induction_on generalizing g with
  | _ k ih =>
    by_cases hframes : g.frames = []
    · exact ⟨0, hframes⟩
    · have hlt := pending_resumed hsound hcancels hrequested hframes (resumed ui g)
      have hkept : Keeps g (g.resume ui) := .resumed (resumed ui g)
      obtain ⟨n, hn⟩ := ih _ (hpending ▸ hlt) (hsound.resumed (resumed ui g)) (hcancels.resumed (resumed ui g))
        (hkept.shutdown hrequested) rfl
      exact ⟨n + 1, hn⟩

theorem run_append (ui : CClientUIInterface) (trimmed : String → String) (before after : List Event) :
    run ui trimmed (before ++ after) = after.foldl (step ui trimmed) (run ui trimmed before) :=
  List.foldl_append

theorem keeps_run (ui : CClientUIInterface) (trimmed : String → String) (before after : List Event) :
    Keeps (run ui trimmed before) (run ui trimmed (before ++ after)) := by
  rw [run_append]
  exact .foldl ui trimmed _ after

/-- What holds from `requestShutdown` on. -/
structure ShutDown (ui : CClientUIInterface) (trimmed : String → String) (before after : List Event) (g : Gui) :
    Prop where
  /-- Once it has gone through the dialogs, each has had its answer and is not shown or queued. -/
  dialogs : .cancelling ∉ g.frames → g.model.m_runtime_dialog_active = none ∧ g.model.m_runtime_dialog_queue = [] ∧
    g.model.m_runtime_dialog_visible = false ∧ g.answered = List.range g.requests.length
  /-- A dialog left is cancelled, unless an answer comes to it while others are. -/
  cancelled : .cancelling ∉ g.frames → ∀ r < (run ui trimmed before).requests.length,
    r ∈ (run ui trimmed before).answered ∨ (r, ui.BTN_CANCEL) ∈ g.answers ∨
      ∃ b earlier later, after = earlier ++ .answerRuntimeDialog b :: later ∧ (r, b) ∈ g.answers ∧
        (run ui trimmed (before ++ .requestShutdown :: earlier)).model.m_runtime_dialog_active = some r
  /-- A call returns false at once. -/
  calls : ∀ message style question,
    g.step ui trimmed (.showRuntimeDialog message style question) = g.returnAtOnce
  /-- Every caller returns, and one that was cancelled returns false. -/
  callers : ∃ n, ∃ ended : Gui, ended = (List.replicate n Event.resume).foldl (step ui trimmed) g ∧
    ended.frames = [] ∧ ∀ r < ended.requests.length, (ended.request r).blocking ui = true →
      ∃ b, (r, b) ∈ ended.answers ∧ .answer r (b == ui.BTN_OK) ∈ ended.returned ∧
        (b = ui.BTN_CANCEL → .answer r false ∈ ended.returned)

theorem requested_requestShutdown (g : Gui) : g.requestShutdown.model.m_shutdown_requested = true := by
  rw [requestShutdown]
  split_ifs with hrequested
  · exact hrequested
  · rfl

theorem answers_requestShutdown (g : Gui) : g.requestShutdown.answers = g.answers := by
  rw [requestShutdown]
  split_ifs <;> rfl

theorem Cancels.idle_of_through (h : Cancels g) (hrequested : g.model.m_shutdown_requested = true)
    (hthrough : .cancelling ∉ g.frames) : g.model.m_runtime_dialog_active = none := by
  refine (h hrequested).resolve_right ?_
  rintro ⟨above, below, hframes, -⟩
  rw [hframes] at hthrough
  exact hthrough (List.mem_append_right _ List.mem_cons_self)

theorem Sound.returned_of_ended (h : Sound ui g) (hframes : g.frames = []) {r : Nat}
    (hblocking : (g.request r).blocking ui = true) :
    ∃ b, (r, b) ∈ g.answers ∧ .answer r (b == ui.BTN_OK) ∈ g.returned := by
  have hcalls := h.calls r
  rw [hframes, hblocking] at hcalls
  have hmem : r ∈ g.returned.filterMap Returned.caller := by
    rw [← List.count_pos_iff]
    simp at hcalls
    omega
  obtain ⟨returned, hreturned, hcaller⟩ := List.mem_filterMap.mp hmem
  cases returned with
  | at_once => cases hcaller
  | answer k v =>
    obtain rfl := Option.some.inj hcaller
    obtain ⟨b, hb, rfl⟩ := h.returned k v hreturned
    exact ⟨b, hb, hreturned⟩

theorem shutDown_run (ui : CClientUIInterface) (trimmed : String → String) (before after : List Event) :
    ShutDown ui trimmed before after (run ui trimmed (before ++ .requestShutdown :: after)) := by
  have hrun : run ui trimmed (before ++ .requestShutdown :: after) =
      after.foldl (step ui trimmed) (run ui trimmed before).requestShutdown := run_append ui trimmed _ _
  have hsound := run_sound ui trimmed (before ++ .requestShutdown :: after)
  have hcancels := cancels_run ui trimmed (before ++ .requestShutdown :: after)
  have hrequested : (run ui trimmed (before ++ .requestShutdown :: after)).model.m_shutdown_requested = true := by
    rw [hrun]
    exact (Keeps.foldl ui trimmed _ after).shutdown (requested_requestShutdown _)
  have hkept := keeps_run ui trimmed before (.requestShutdown :: after)
  constructor
  case dialogs =>
    intro hthrough
    have hidle := hcancels.idle_of_through hrequested hthrough
    exact ⟨hidle, hsound.queue_nil hidle, by rw [hsound.visible, hidle, Option.isSome_none],
      hsound.answered_of_idle hidle⟩
  case cancelled =>
    intro hthrough r hr
    have hidle := hcancels.idle_of_through hrequested hthrough
    have hanswered : r ∈ (run ui trimmed (before ++ .requestShutdown :: after)).answered := by
      rw [hsound.answered_of_idle hidle, List.mem_range]
      exact hr.trans_le hkept.length
    obtain ⟨⟨r, b⟩, hb, rfl⟩ := List.mem_map.mp hanswered
    rcases origin_foldl ui trimmed _ after (hrun ▸ hb) with hold | rfl | ⟨earlier, later, rfl, hactive⟩
    · rw [answers_requestShutdown] at hold
      exact .inl (List.mem_map_of_mem hold)
    · exact .inr (.inl hb)
    · refine .inr (.inr ⟨b, earlier, later, rfl, hb, ?_⟩)
      rw [run_append]
      exact hactive
  case calls =>
    intro message style question
    rw [step, showRuntimeDialogOnGuiThread, hrequested, Bool.true_or, if_pos rfl]
  case callers =>
    obtain ⟨n, hended⟩ := exists_drained trimmed hsound hcancels hrequested
    refine ⟨n, _, rfl, hended, fun r _ hblocking => ?_⟩
    have hlast := run_append ui trimmed (before ++ .requestShutdown :: after) (List.replicate n .resume)
    have hsound' := run_sound ui trimmed (before ++ .requestShutdown :: after ++ List.replicate n .resume)
    rw [hlast] at hsound'
    obtain ⟨b, hb, hreturned⟩ := hsound'.returned_of_ended hended hblocking
    refine ⟨b, hb, hreturned, ?_⟩
    rintro rfl
    rwa [beq_false_of_ne ui.BTN_CANCEL_ne] at hreturned

/-- Dialogs are shown one at a time in the order of the calls, each is answered once, a blocking call is told the
answer to its own dialog, and a shutdown leaves none. -/
theorem dialogs_of_run (ui : CClientUIInterface) (trimmed : String → String) (events : List Event) :
    let g := run ui trimmed events
    g.shown ++ g.model.m_runtime_dialog_queue = List.range g.requests.length ∧
      g.answered ++ g.model.m_runtime_dialog_active.toList = g.shown ∧ g.shown.Nodup ∧
      g.model.m_runtime_dialog_visible = g.model.m_runtime_dialog_active.isSome ∧
      (∀ r, g.model.m_runtime_dialog_active = some r → g.model.m_runtime_dialog = (g.request r).dialog ui) ∧
      (∀ r v, .answer r v ∈ g.returned → ∃ b, (r, b) ∈ g.answers ∧ (v = true ↔ b = ui.BTN_OK)) ∧
      (∀ r, (g.frames.filterMap Frame.caller).count r + (g.returned.filterMap Returned.caller).count r =
        ((g.request r).blocking ui).toNat) ∧
      (∀ before after, events = before ++ after → Keeps (run ui trimmed before) g) ∧
      ∀ before after, events = before ++ .requestShutdown :: after → ShutDown ui trimmed before after g := by
  intro g
  have hsound : Sound ui g := run_sound ui trimmed events
  refine ⟨hsound.arrival, hsound.answered, (hsound.arrival ▸ List.nodup_range).of_append_left, hsound.visible,
    hsound.dialog, fun r v hmem => ?_, hsound.calls, ?_, ?_⟩
  · obtain ⟨b, hb, rfl⟩ := hsound.returned r v hmem
    exact ⟨b, hb, beq_iff_eq⟩
  · rintro before after rfl
    exact keeps_run ui trimmed before after
  · rintro before after rfl
    exact shutDown_run ui trimmed before after

/-! ## A question that waits -/

/-- The flags as Core has them. -/
def coreInterface : CClientUIInterface where
  ICON_WARNING := 0x1
  ICON_ERROR := 0x2
  MODAL := 0x10000000
  BTN_MASK := 0x7FD4400
  BTN_OK := 0x400
  BTN_CANCEL := 0x400000
  BTN_CANCEL_ne := by decide

/-- An error is shown, its caller waits, and a question is queued behind it. -/
def errorAndQuestion : List Event :=
  [.initializeResult, .showRuntimeDialog "Disk space is too low!" (0x10000000 ||| 0x2) false, .resume,
    .showRuntimeDialog "Do you want to rebuild the databases now?" (0x10000000 ||| 0x400 ||| 0x40000) true]

/-- After a shutdown and seven steps nothing runs, and both callers were told no. -/
theorem dialogs_of_run_question :
    let g := run coreInterface id (errorAndQuestion ++ .requestShutdown :: List.replicate 7 .resume)
    g.shown = [0, 1] ∧ g.frames = [] ∧
      ShutDown coreInterface id errorAndQuestion (List.replicate 7 .resume) g ∧
      (∃ b, (1, b) ∈ g.answers ∧ (false = true ↔ b = coreInterface.BTN_OK)) ∧
      g.returned = [.answer 1 false, .answer 0 false] := by
  intro g
  obtain ⟨-, -, -, -, -, hreturned, -, -, hshutdown⟩ :=
    dialogs_of_run coreInterface id (errorAndQuestion ++ .requestShutdown :: List.replicate 7 .resume)
  have htold : g.returned = [.answer 1 false, .answer 0 false] := by decide +kernel
  refine ⟨by decide +kernel, by decide +kernel, hshutdown _ _ rfl, hreturned 1 false ?_, htold⟩
  rw [htold]
  exact List.mem_cons_self

end Gui

end GuiQml.Dialogs
