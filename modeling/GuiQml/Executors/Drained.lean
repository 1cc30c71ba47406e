import GuiQml.Executors.Sound

/-!
# The registries

An executor is registered until its thread is joined. A callback of `shutdownAll` moves from the registry of
the executors to that of the joins once no executor is registered, and is queued once no join is pending.
-/

namespace GuiQml.Executors

open Journal Reach

variable {E R : Type} [DecidableEq E] [DecidableEq R] {e : E} {J J' : List (Note E R)} {n : Note E R}
  {s : System E R}

/-! ## Threads and joins -/

/-- What registration and joins have to do with the threads of the executors. -/
structure Registered (thread : E → Option Stage) (owners : List E) (joining : Finset (Joining E R))
    (next_join : Nat) (pending_joins : Int) (J : List (Note E R)) : Prop where
  owners : ∀ e, e ∈ owners ↔ ∃ stage, thread e = some stage ∧ stage ≠ .gone
  unregistered : ∀ e, thread e = some .gone → .unregistered e ∈ J
  joins : ∀ e, .executor e ∈ joining ↔ thread e = some .joining
  started : ∀ j, .joinStarted j ∈ J → j ∈ joining ∨ .joinEnded j ∈ J
  started_executor : ∀ e, .joinStarted (.executor e) ∈ J → thread e = some .joining ∨ thread e = some .gone
  started_other : ∀ number r, .joinStarted (.other number r) ∈ J → number < next_join
  joining_other : ∀ number r, .other number r ∈ joining → number < next_join
  pending : pending_joins = joining.card

namespace Registered

variable {thread : E → Option Stage} {owners : List E} {joining : Finset (Joining E R)} {next_join : Nat}
  {pending_joins : Int}

omit [DecidableEq E] [DecidableEq R] in
theorem note (h : Registered thread owners joining next_join pending_joins J)
    (hn : ∀ j, n ≠ .joinStarted j) : Registered thread owners joining next_join pending_joins (n :: J) := by
  have hmem (j : Joining E R) (hj : .joinStarted j ∈ n :: J) : .joinStarted j ∈ J :=
    (List.mem_cons.mp hj).resolve_left fun heq => hn j heq.symm
  exact ⟨h.owners, fun e he => List.mem_cons_of_mem _ (h.unregistered e he), h.joins,
    fun j hj => (h.started j (hmem j hj)).imp_right (List.mem_cons_of_mem _),
    fun e he => h.started_executor e (hmem _ he), fun number r hr => h.started_other number r (hmem _ hr),
    h.joining_other, h.pending⟩

omit [DecidableEq R] in
theorem advance (h : Registered thread owners joining next_join pending_joins J) {stage stage' : Stage}
    (he : thread e = some stage) (hstage : stage ≠ .joining ∧ stage ≠ .gone)
    (hstage' : stage' ≠ .joining ∧ stage' ≠ .gone) :
    Registered (Function.update thread e (some stage')) owners joining next_join pending_joins J := by
  refine ⟨fun other => ?_, fun other hother => ?_, fun other => ?_, h.started, fun other hother => ?_,
    h.started_other, h.joining_other, h.pending⟩
  · by_cases hother : other = e
    · subst hother
      rw [h.owners, Function.update_self, he]
      exact iff_of_true ⟨stage, rfl, hstage.2⟩ ⟨stage', rfl, hstage'.2⟩
    · rw [h.owners, Function.update_of_ne hother]
  · by_cases heq : other = e
    · subst heq
      rw [Function.update_self] at hother
      exact absurd (Option.some.inj hother) hstage'.2
    · rw [Function.update_of_ne heq] at hother
      exact h.unregistered other hother
  · by_cases hother : other = e
    · subst hother
      rw [h.joins, Function.update_self, he]
      exact iff_of_false (fun h => hstage.1 (Option.some.inj h)) fun h => hstage'.1 (Option.some.inj h)
    · rw [h.joins, Function.update_of_ne hother]
  · have hstarted := h.started_executor other hother
    by_cases heq : other = e
    · subst heq
      rw [he] at hstarted
      rcases hstarted with hstarted | hstarted
      · exact absurd (Option.some.inj hstarted) hstage.1
      · exact absurd (Option.some.inj hstarted) hstage.2
    · rw [Function.update_of_ne heq]
      exact hstarted

omit [DecidableEq R] in
theorem construct (h : Registered thread owners joining next_join pending_joins J) (he : thread e = none) :
    Registered (Function.update thread e (some .running)) (owners ++ [e]) joining next_join pending_joins J := by
  refine ⟨fun other => ?_, fun other hother => ?_, fun other => ?_, h.started, fun other hother => ?_,
    h.started_other, h.joining_other, h.pending⟩
  · rw [List.mem_append, List.mem_singleton]
    by_cases hother : other = e
    · subst hother
      rw [Function.update_self]
      exact iff_of_true (.inr rfl) ⟨.running, rfl, nofun⟩
    · rw [h.owners, Function.update_of_ne hother]
      exact ⟨fun hor => hor.resolve_right hother, .inl⟩
  · by_cases heq : other = e
    · subst heq
      rw [Function.update_self] at hother
      cases hother
    · rw [Function.update_of_ne heq] at hother
      exact h.unregistered other hother
  · by_cases hother : other = e
    · subst hother
      rw [h.joins, Function.update_self, he]
      exact iff_of_false nofun nofun
    · rw [h.joins, Function.update_of_ne hother]
  · have hstarted := h.started_executor other hother
    by_cases heq : other = e
    · subst heq
      rw [he] at hstarted
      exact hstarted.elim nofun nofun
    · rw [Function.update_of_ne heq]
      exact hstarted

theorem join_other (h : Registered thread owners joining next_join pending_joins J) (r : R) :
    Registered thread owners (insert (.other next_join r) joining) (next_join + 1) (pending_joins + 1)
      (.joinStarted (.other next_join r) :: J) ∧ .joinStarted (.other next_join r) ∉ J := by
  have hnew : (.other next_join r : Joining E R) ∉ joining := fun hmem =>
    absurd (h.joining_other _ _ hmem) (Nat.lt_irrefl _)
  refine ⟨⟨h.owners, fun e he => List.mem_cons_of_mem _ (h.unregistered e he), fun e => ?_, fun j hj => ?_,
    fun e he => h.started_executor e (by simpa using he), fun number r' hr => ?_, fun number r' hr => ?_, ?_⟩,
    fun hmem => absurd (h.started_other _ _ hmem) (Nat.lt_irrefl _)⟩
  · rw [Finset.mem_insert, h.joins]
    exact ⟨fun hor => hor.resolve_left nofun, .inr⟩
  · rcases List.mem_cons.mp hj with heq | hj
    · obtain rfl := Note.joinStarted.inj heq
      exact .inl (Finset.mem_insert_self _ _)
    · exact (h.started j hj).imp (Finset.mem_insert_of_mem ·) (List.mem_cons_of_mem _)
  · rcases List.mem_cons.mp hr with heq | hr
    · obtain ⟨rfl, -⟩ := Joining.other.inj (Note.joinStarted.inj heq)
      exact Nat.lt_succ_self _
    · exact Nat.lt_succ_of_lt (h.started_other number r' hr)
  · rcases Finset.mem_insert.mp hr with heq | hr
    · obtain ⟨rfl, -⟩ := Joining.other.inj heq
      exact Nat.lt_succ_self _
    · exact Nat.lt_succ_of_lt (h.joining_other number r' hr)
  · rw [Finset.card_insert_of_notMem hnew, h.pending]
    rfl

theorem join_executor (h : Registered thread owners joining next_join pending_joins J)
    (he : thread e = some .finished) :
    Registered (Function.update thread e (some .joining)) owners (insert (.executor e) joining) next_join
      (pending_joins + 1) (.joinStarted (.executor e) :: J) ∧ .joinStarted (.executor e) ∉ J := by
  have hnew : (.executor e : Joining E R) ∉ joining := by
    rw [h.joins, he]
    exact nofun
  have hnever : .joinStarted (.executor e) ∉ J := fun hmem => by
    have := h.started_executor e hmem
    rw [he] at this
    exact this.elim nofun nofun
  refine ⟨⟨fun other => ?_, fun other hother => ?_, fun other => ?_, fun j hj => ?_, fun other hother => ?_,
    fun number r hr => h.started_other number r (by simpa using hr),
    fun number r hr => h.joining_other number r (by simpa using hr), ?_⟩, hnever⟩
  · rw [h.owners]
    by_cases hother : other = e
    · subst hother
      rw [Function.update_self, he]
      exact iff_of_true ⟨_, rfl, nofun⟩ ⟨_, rfl, nofun⟩
    · rw [Function.update_of_ne hother]
  · refine List.mem_cons_of_mem _ (h.unregistered other ?_)
    by_cases heq : other = e
    · subst heq
      rw [Function.update_self] at hother
      cases hother
    · rwa [Function.update_of_ne heq] at hother
  · rw [Finset.mem_insert, h.joins]
    by_cases hother : other = e
    · subst hother
      rw [Function.update_self]
      exact iff_of_true (.inl rfl) rfl
    · rw [Function.update_of_ne hother]
      exact ⟨fun hor => hor.resolve_left fun heq => hother (Joining.executor.inj heq), .inr⟩
  · rcases List.mem_cons.mp hj with heq | hj
    · obtain rfl := Note.joinStarted.inj heq
      exact .inl (Finset.mem_insert_self _ _)
    · exact (h.started j hj).imp (Finset.mem_insert_of_mem ·) (List.mem_cons_of_mem _)
  · by_cases heq : other = e
    · subst heq
      rw [Function.update_self]
      exact .inl rfl
    · rw [Function.update_of_ne heq]
      refine h.started_executor other ((List.mem_cons.mp hother).resolve_left fun hsame => heq ?_)
      exact Joining.executor.inj (Note.joinStarted.inj hsame)
  · rw [Finset.card_insert_of_notMem hnew, h.pending]
    rfl

theorem ended (h : Registered thread owners joining next_join pending_joins J) {j : Joining E R}
    (hj : j ∈ joining) (hother : ∀ e, j ≠ .executor e) :
    Registered thread owners (joining.erase j) next_join (pending_joins - 1) (.joinEnded j :: J) := by
  refine ⟨h.owners, fun e he => List.mem_cons_of_mem _ (h.unregistered e he), fun e => ?_, fun i hi => ?_,
    fun e he => h.started_executor e (by simpa using he),
    fun number r hr => h.started_other number r (by simpa using hr),
    fun number r hr => h.joining_other number r (Finset.mem_of_mem_erase hr), ?_⟩
  · rw [Finset.mem_erase, h.joins]
    exact ⟨fun hand => hand.2, fun he => ⟨(hother e).symm, he⟩⟩
  · by_cases heq : i = j
    · subst heq
      exact .inr List.mem_cons_self
    · exact (h.started i (by simpa using hi)).imp (fun hmem => Finset.mem_erase.mpr ⟨heq, hmem⟩)
        (List.mem_cons_of_mem _)
  · rw [Finset.card_erase_of_mem hj, h.pending]
    have := Finset.card_pos.mpr ⟨j, hj⟩
    omega

theorem ended_executor (h : Registered thread owners joining next_join pending_joins J)
    (he : .executor e ∈ joining) :
    Registered (Function.update thread e (some .gone)) (owners.filter (· ≠ e)) (joining.erase (.executor e))
      next_join (pending_joins - 1) (.unregistered e :: .joinEnded (.executor e) :: J) := by
  refine ⟨fun other => ?_, fun other hother => ?_, fun other => ?_, fun j hj => ?_, fun other hother => ?_,
    fun number r hr => h.started_other number r (by simpa using hr),
    fun number r hr => h.joining_other number r (Finset.mem_of_mem_erase hr), ?_⟩
  · rw [List.mem_filter, h.owners]
    by_cases hother : other = e
    · subst hother
      rw [Function.update_self]
      refine iff_of_false (fun hand => by simpa using hand.2) ?_
      rintro ⟨stage, hstage, hne⟩
      exact hne (Option.some.inj hstage).symm
    · rw [Function.update_of_ne hother]
      exact ⟨fun hand => hand.1, fun hstage => ⟨hstage, decide_eq_true hother⟩⟩
  · by_cases heq : other = e
    · subst heq
      exact List.mem_cons_self
    · rw [Function.update_of_ne heq] at hother
      exact List.mem_cons_of_mem _ (List.mem_cons_of_mem _ (h.unregistered other hother))
  · rw [Finset.mem_erase, h.joins]
    by_cases hother : other = e
    · subst hother
      rw [Function.update_self]
      exact iff_of_false (fun hand => hand.1 rfl) nofun
    · rw [Function.update_of_ne hother]
      exact ⟨fun hand => hand.2, fun hstage => ⟨fun heq => hother (Joining.executor.inj heq), hstage⟩⟩
  · by_cases heq : j = .executor e
    · subst heq
      exact .inr (by simp)
    · refine (h.started j (by simpa using hj)).imp (fun hmem => Finset.mem_erase.mpr ⟨heq, hmem⟩) fun hmem => ?_
      exact List.mem_cons_of_mem _ (List.mem_cons_of_mem _ hmem)
  · by_cases heq : other = e
    · subst heq
      rw [Function.update_self]
      exact .inr rfl
    · rw [Function.update_of_ne heq]
      exact h.started_executor other (by simpa using hother)
  · rw [Finset.card_erase_of_mem he, h.pending]
    have := Finset.card_pos.mpr ⟨_, he⟩
    omega

omit [DecidableEq E] [DecidableEq R] in
theorem closed (h : Registered thread [] joining next_join 0 J)
    (hborn : ∀ e, .registered e ∈ J → thread e ≠ none) :
    (∀ e, .registered e ∈ J → .unregistered e ∈ J) ∧ ∀ j, .joinStarted j ∈ J → .joinEnded j ∈ J := by
  refine ⟨fun e he => ?_, fun j hj => ?_⟩
  · obtain ⟨stage, hstage⟩ := Option.ne_none_iff_exists'.mp (hborn e he)
    have hgone : stage = .gone := by
      by_contra hne
      exact nomatch (h.owners e).mpr ⟨stage, hstage, hne⟩
    exact h.unregistered e (hstage.trans (congrArg some hgone))
  · refine (h.started j hj).resolve_left fun hmem => ?_
    have hempty : joining = ∅ := Finset.card_eq_zero.mp (Int.natCast_eq_zero.mp h.pending.symm)
    rw [hempty] at hmem
    exact absurd hmem (Finset.notMem_empty j)

end Registered

/-! ## Callbacks -/

/-- Every callback that was asked for and is not queued waits in one registry, or its receiver is gone. -/
structure Waiting (drain_callbacks join_callbacks : List (Nat × R)) (next_callback : Nat)
    (destroyed : Finset R) (J : List (Note E R)) : Prop where
  asked : ∀ number r, .asked number r ∈ J → number < next_callback ∧
    (.queued number ∈ J ∨ (number, r) ∈ drain_callbacks ++ join_callbacks ∨ r ∈ destroyed)
  waiting : ∀ callback ∈ drain_callbacks ++ join_callbacks,
    .asked callback.1 callback.2 ∈ J ∧ .queued callback.1 ∉ J
  distinct : ((drain_callbacks ++ join_callbacks).map Prod.fst).Nodup
  queued : ∀ number, .queued number ∈ J → number < next_callback

namespace Waiting

variable {drain_callbacks join_callbacks : List (Nat × R)} {next_callback : Nat} {destroyed : Finset R}
  {callback : Nat × R}

omit [DecidableEq E] [DecidableEq R] in
theorem note (h : Waiting drain_callbacks join_callbacks next_callback destroyed J)
    (hasked : ∀ number r, n ≠ .asked number r) (hqueued : ∀ number, n ≠ .queued number) :
    Waiting drain_callbacks join_callbacks next_callback destroyed (n :: J) := by
  refine ⟨fun number r hmem => ?_, fun callback hmem => ?_, h.distinct,
    fun number hmem => h.queued number ((List.mem_cons.mp hmem).resolve_left (hqueued number).symm)⟩
  · obtain ⟨hlt, hor⟩ := h.asked number r ((List.mem_cons.mp hmem).resolve_left (hasked number r).symm)
    exact ⟨hlt, hor.imp_left (List.mem_cons_of_mem _)⟩
  · obtain ⟨hasked, hnot⟩ := h.waiting callback hmem
    exact ⟨List.mem_cons_of_mem _ hasked, List.not_mem_cons_of_ne_of_not_mem (hqueued _).symm hnot⟩

omit [DecidableEq E] in
theorem destroy (h : Waiting drain_callbacks join_callbacks next_callback destroyed J) (r : R) :
    Waiting drain_callbacks join_callbacks next_callback (insert r destroyed) J :=
  ⟨fun number r hmem => (h.asked number r hmem).imp_right fun hor =>
    hor.imp_right fun hor => hor.imp_right (Finset.mem_insert_of_mem ·), h.waiting, h.distinct, h.queued⟩

omit [DecidableEq E] [DecidableEq R] in
theorem ask (h : Waiting drain_callbacks join_callbacks next_callback destroyed J) (r : R) :
    Waiting (drain_callbacks ++ [(next_callback, r)]) join_callbacks (next_callback + 1) destroyed
      (.asked next_callback r :: J) := by
  have hnew : next_callback ∉ (drain_callbacks ++ join_callbacks).map Prod.fst := fun hmem => by
    obtain ⟨callback, hcallback, heq⟩ := List.mem_map.mp hmem
    have := (h.asked _ _ (h.waiting callback hcallback).1).1
    omega
  have hperm : (drain_callbacks ++ [(next_callback, r)] ++ join_callbacks).Perm
      ((next_callback, r) :: (drain_callbacks ++ join_callbacks)) := by
    rw [List.append_assoc]
    exact List.perm_middle
  have hfresh : .queued next_callback ∉ J := fun hmem => absurd (h.queued _ hmem) (Nat.lt_irrefl _)
  refine ⟨fun number r' hmem => ?_, fun callback hmem => ?_, ?_, fun number hmem =>
    Nat.lt_succ_of_lt (h.queued number (by simpa using hmem))⟩
  · rcases List.mem_cons.mp hmem with heq | hmem
    · obtain ⟨rfl, rfl⟩ := Note.asked.inj heq
      exact ⟨Nat.lt_succ_self _, .inr (.inl (hperm.mem_iff.mpr List.mem_cons_self))⟩
    · obtain ⟨hlt, hor⟩ := h.asked number r' hmem
      refine ⟨Nat.lt_succ_of_lt hlt, hor.imp (List.mem_cons_of_mem _) fun hor => hor.imp_left fun hmem => ?_⟩
      exact hperm.mem_iff.mpr (List.mem_cons_of_mem _ hmem)
  · rcases List.mem_cons.mp (hperm.mem_iff.mp hmem) with rfl | hmem
    · exact ⟨List.mem_cons_self, by simpa using hfresh⟩
    · obtain ⟨hasked, hnot⟩ := h.waiting callback hmem
      exact ⟨List.mem_cons_of_mem _ hasked, by simpa using hnot⟩
  · rw [(hperm.map Prod.fst).nodup_iff, List.map_cons, List.nodup_cons]
    exact ⟨hnew, h.distinct⟩

omit [DecidableEq E] [DecidableEq R] in
theorem move (h : Waiting (callback :: drain_callbacks) join_callbacks next_callback destroyed J) :
    Waiting drain_callbacks (join_callbacks ++ [callback]) next_callback destroyed J := by
  have hperm : (drain_callbacks ++ (join_callbacks ++ [callback])).Perm
      (callback :: drain_callbacks ++ join_callbacks) := by
    rw [← List.append_assoc]
    exact List.perm_append_singleton _ _
  refine ⟨fun number r hmem => ?_, fun other hmem => h.waiting other (hperm.mem_iff.mp hmem), ?_, h.queued⟩
  · obtain ⟨hlt, hor⟩ := h.asked number r hmem
    exact ⟨hlt, hor.imp_right fun hor => hor.imp_left hperm.mem_iff.mpr⟩
  · rw [(hperm.map Prod.fst).nodup_iff]
    exact h.distinct

omit [DecidableEq E] [DecidableEq R] in
theorem forget {front back : List (Nat × R)} (h : Waiting front back next_callback destroyed J)
    {front' back' : List (Nat × R)} (hperm : (front ++ back).Perm (callback :: (front' ++ back')))
    (hgone : callback.2 ∈ destroyed) : Waiting front' back' next_callback destroyed J := by
  refine ⟨fun number r hmem => ?_, fun other hmem => ?_, ?_, h.queued⟩
  · obtain ⟨hlt, hor⟩ := h.asked number r hmem
    refine ⟨hlt, ?_⟩
    rcases hor with hqueued | hwaits | hdestroyed
    · exact .inl hqueued
    · rcases List.mem_cons.mp (hperm.mem_iff.mp hwaits) with rfl | hwaits
      · exact .inr (.inr hgone)
      · exact .inr (.inl hwaits)
    · exact .inr (.inr hdestroyed)
  · exact h.waiting other (hperm.mem_iff.mpr (List.mem_cons_of_mem _ hmem))
  · have := h.distinct
    rw [(hperm.map Prod.fst).nodup_iff, List.map_cons, List.nodup_cons] at this
    exact this.2

omit [DecidableEq E] [DecidableEq R] in
theorem queue (h : Waiting drain_callbacks (callback :: join_callbacks) next_callback destroyed J) :
    Waiting drain_callbacks join_callbacks next_callback destroyed (.queued callback.1 :: J) := by
  have hperm : (drain_callbacks ++ callback :: join_callbacks).Perm
      (callback :: (drain_callbacks ++ join_callbacks)) := List.perm_middle
  have hdistinct := h.distinct
  rw [(hperm.map Prod.fst).nodup_iff, List.map_cons, List.nodup_cons] at hdistinct
  have hlt := (h.asked _ _ (h.waiting callback (hperm.mem_iff.mpr List.mem_cons_self)).1).1
  refine ⟨fun number r hmem => ?_, fun other hmem => ?_, hdistinct.2, fun number hmem => ?_⟩
  · obtain ⟨hlt, hor⟩ := h.asked number r (by simpa using hmem)
    refine ⟨hlt, ?_⟩
    rcases hor with hqueued | hwaits | hdestroyed
    · exact .inl (List.mem_cons_of_mem _ hqueued)
    · rcases List.mem_cons.mp (hperm.mem_iff.mp hwaits) with rfl | hwaits
      · exact .inl List.mem_cons_self
      · exact .inr (.inl hwaits)
    · exact .inr (.inr hdestroyed)
  · obtain ⟨hasked, hnot⟩ := h.waiting other (hperm.mem_iff.mpr (List.mem_cons_of_mem _ hmem))
    refine ⟨List.mem_cons_of_mem _ hasked, List.not_mem_cons_of_ne_of_not_mem (fun heq => ?_) hnot⟩
    have heq : other.1 = callback.1 := Note.queued.inj heq
    exact hdistinct.1 (heq ▸ List.mem_map_of_mem hmem)
  · rcases List.mem_cons.mp hmem with heq | hmem
    · obtain rfl := Note.queued.inj heq
      exact hlt
    · exact h.queued number hmem

end Waiting

/-! ## The system -/

/-- The thread of an executor that was constructed. -/
def System.thread (s : System E R) (e : E) : Option Stage := (s.executors e).map BackendExecutor.thread

omit [DecidableEq R] in
@[simp] theorem executors_set_self (s : System E R) (e : E) (x : BackendExecutor R) :
    (s.set e x).executors e = some x := Function.update_self ..

omit [DecidableEq R] in
theorem executors_set_of_ne {other : E} (h : other ≠ e) (s : System E R) (x : BackendExecutor R) :
    (s.set e x).executors other = s.executors other := Function.update_of_ne h ..

omit [DecidableEq R] in
theorem thread_set (s : System E R) (e : E) (x : BackendExecutor R) :
    (s.set e x).thread = Function.update s.thread e (some x.thread) := by
  funext other
  unfold System.thread
  by_cases hother : other = e
  · subst hother
    rw [executors_set_self, Function.update_self]
    rfl
  · rw [executors_set_of_ne hother, Function.update_of_ne hother]

omit [DecidableEq E] [DecidableEq R] in
theorem thread_of {x : BackendExecutor R} (h : s.executors e = some x) : s.thread e = some x.thread := by
  unfold System.thread
  rw [h]
  rfl

/-- Everything but where the callbacks may wait. -/
structure SystemInv (s : System E R) (drain_callbacks join_callbacks : List (Nat × R)) : Prop where
  executor : ∀ e x, s.executors e = some x → ∃ begun, ExecutorInv e x s.journal begun
  unborn : ∀ e, s.executors e = none → ∀ n ∈ s.journal, n.executor ≠ some e
  registered : Registered s.thread s.owners_by_thread s.joining s.next_join s.pending_joins s.journal
  waiting : Waiting drain_callbacks join_callbacks s.next_callback s.destroyed s.journal
  destroyed : ∀ r, .destroyed r ∈ s.journal ↔ r ∈ s.destroyed
  joins : join_callbacks ≠ [] → s.owners_by_thread = []
  keeps : Keeps Sound s.journal

namespace SystemInv

variable {drain_callbacks join_callbacks : List (Nat × R)} {x : BackendExecutor R}

omit [DecidableEq E] [DecidableEq R] in
theorem note (h : SystemInv s drain_callbacks join_callbacks) (hexecutor : ∀ e, n.executor ≠ some e)
    (hstarted : ∀ j, n ≠ .joinStarted j) (hasked : ∀ number r, n ≠ .asked number r)
    (hqueued : ∀ number, n ≠ .queued number) (hdestroyed : ∀ r, n ≠ .destroyed r) (hrule : Sound n s.journal) :
    SystemInv (s.note n) drain_callbacks join_callbacks := by
  refine ⟨fun e x hx => ?_, fun e he m hm => ?_, h.registered.note hstarted, h.waiting.note hasked hqueued,
    fun r => ?_, h.joins, h.keeps.write hrule⟩
  · obtain ⟨begun, hx⟩ := h.executor e x hx
    exact ⟨begun, hx.note_other (hexecutor e)⟩
  · rcases List.mem_cons.mp hm with rfl | hm
    · exact hexecutor e
    · exact h.unborn e he m hm
  · refine Iff.trans ?_ (h.destroyed r)
    exact ⟨fun hmem => (List.mem_cons.mp hmem).resolve_left (hdestroyed r).symm, List.mem_cons_of_mem _⟩

omit [DecidableEq R] in
theorem set (h : SystemInv s drain_callbacks join_callbacks) {x' : BackendExecutor R} (hx : s.executors e = some x)
    (hx' : ∃ begun, ExecutorInv e x' s.journal begun)
    (hthread : x'.thread = x.thread ∨ (x.thread ≠ .joining ∧ x.thread ≠ .gone) ∧
      x'.thread ≠ .joining ∧ x'.thread ≠ .gone) :
    SystemInv (s.set e x') drain_callbacks join_callbacks := by
  have hstage := thread_of hx
  refine ⟨fun other y hy => ?_, fun other hother => ?_, ?_, h.waiting, h.destroyed, h.joins, h.keeps⟩
  · by_cases hother : other = e
    · subst hother
      rw [executors_set_self] at hy
      obtain rfl := Option.some.inj hy
      exact hx'
    · rw [executors_set_of_ne hother] at hy
      exact h.executor other y hy
  · by_cases heq : other = e
    · subst heq
      rw [executors_set_self] at hother
      cases hother
    · rw [executors_set_of_ne heq] at hother
      exact h.unborn other hother
  · rw [thread_set]
    rcases hthread with hsame | ⟨hbefore, hafter⟩
    · rw [hsame, ← hstage, Function.update_eq_self]
      exact h.registered
    · exact h.registered.advance hstage hbefore hafter

omit [DecidableEq R] in
theorem set_note (h : SystemInv s drain_callbacks join_callbacks) {x' : BackendExecutor R} (hx : s.executors e = some x)
    (hn : n.executor = some e) (hx' : ∃ begun, ExecutorInv e x' (n :: s.journal) begun)
    (hthread : x'.thread = x.thread) (hrule : Sound n s.journal) :
    SystemInv ((s.set e x').note n) drain_callbacks join_callbacks := by
  have hstage := thread_of hx
  have hother (other : E) (hne : other ≠ e) : n.executor ≠ some other := fun heq =>
    hne (Option.some.inj (heq.symm.trans hn))
  have hdestroyed (r : R) : n ≠ .destroyed r := by
    rintro rfl
    cases hn
  refine ⟨fun other y hy => ?_, fun other hnone m hm => ?_, ?_, h.waiting.note ?_ ?_, fun r => ?_, h.joins,
    h.keeps.write hrule⟩
  · change (s.set e x').executors other = some y at hy
    by_cases heq : other = e
    · subst heq
      rw [executors_set_self] at hy
      obtain rfl := Option.some.inj hy
      exact hx'
    · rw [executors_set_of_ne heq] at hy
      obtain ⟨begun, hy⟩ := h.executor other y hy
      exact ⟨begun, hy.note_other (hother other heq)⟩
  · change (s.set e x').executors other = none at hnone
    by_cases heq : other = e
    · subst heq
      rw [executors_set_self] at hnone
      cases hnone
    · rw [executors_set_of_ne heq] at hnone
      rcases List.mem_cons.mp hm with rfl | hm
      · exact hother other heq
      · exact h.unborn other hnone m hm
  · show Registered (s.set e x').thread _ _ _ _ _
    rw [thread_set, hthread, ← hstage, Function.update_eq_self]
    refine h.registered.note ?_
    rintro j rfl
    cases hn
  · rintro number r rfl
    cases hn
  · rintro number rfl
    cases hn
  · refine Iff.trans ?_ (h.destroyed r)
    exact ⟨fun hmem => (List.mem_cons.mp hmem).resolve_left (hdestroyed r).symm, List.mem_cons_of_mem _⟩

/-! ### Steps of one executor -/

omit [DecidableEq R] in
theorem submit (h : SystemInv s drain_callbacks join_callbacks) (e : E) (task : Task R) :
    SystemInv (s.submit e task) drain_callbacks join_callbacks := by
  unfold System.submit
  split
  next x hx =>
    split
    · exact h
    split
    next hstops =>
      obtain ⟨begun, hexecutor⟩ := h.executor e x hx
      exact h.note nofun nofun nofun nofun nofun (hexecutor.shutdown.mpr hstops)
    next hworks =>
      obtain ⟨begun, hexecutor⟩ := h.executor e x hx
      obtain ⟨hsubmit, hrule⟩ := hexecutor.submit (by simpa using hworks) task
      exact h.set_note hx rfl ⟨begun, hsubmit⟩ rfl hrule
  next => exact h

omit [DecidableEq R] in
theorem shutdown (h : SystemInv s drain_callbacks join_callbacks) (e : E) :
    SystemInv (s.shutdown e) drain_callbacks join_callbacks := by
  unfold System.shutdown
  split
  next x hx =>
    split
    · exact h
    next hnone =>
      simp only [Bool.or_eq_true, not_or, Bool.not_eq_true] at hnone
      obtain ⟨begun, hexecutor⟩ := h.executor e x hx
      exact h.set_note hx rfl ⟨begun, hexecutor.stop hnone.2⟩ rfl trivial
  next => exact h

omit [DecidableEq R] in
theorem destroy (h : SystemInv s drain_callbacks join_callbacks) (e : E) :
    SystemInv (s.destroy e) drain_callbacks join_callbacks := by
  have hshutdown := h.shutdown e
  unfold System.destroy
  dsimp only
  split
  next x hx =>
    obtain ⟨begun, hexecutor⟩ := hshutdown.executor e x hx
    refine hshutdown.set hx ⟨begun, ?_⟩ (.inl rfl)
    exact (hexecutor.drop (List.nil_sublist _)).with_unseen false x.m_drained x.m_retained_tasks x.returning
  next => exact hshutdown

omit [DecidableEq E] in
theorem destroyReceiver (h : SystemInv s drain_callbacks join_callbacks) (r : R) :
    SystemInv ({ s with destroyed := insert r s.destroyed }.note (.destroyed r)) drain_callbacks join_callbacks := by
  refine ⟨fun e x hx => ?_, fun e he m hm => ?_, h.registered.note nofun,
    (h.waiting.destroy r).note nofun nofun, fun other => ?_, h.joins, h.keeps.write trivial⟩
  · obtain ⟨begun, hx⟩ := h.executor e x hx
    exact ⟨begun, hx.note_other nofun⟩
  · rcases List.mem_cons.mp hm with rfl | hm
    · exact nofun
    · exact h.unborn e he m hm
  · show Note.destroyed other ∈ Note.destroyed r :: s.journal ↔ other ∈ insert r s.destroyed
    rw [List.mem_cons, Finset.mem_insert, h.destroyed, Note.destroyed.injEq]

theorem completed (h : SystemInv s drain_callbacks join_callbacks) (e : E) :
    SystemInv (s.completed e) drain_callbacks join_callbacks := by
  unfold System.completed
  split
  next x hx =>
    obtain ⟨begun, hexecutor⟩ := h.executor e x hx
    split
    next id outcome rest _ hcompleted =>
      have hsub : rest.Sublist x.completed := by
        rw [hcompleted]
        exact List.sublist_cons_self _ _
      split
      next => exact h.set hx ⟨begun, hexecutor.drop hsub⟩ (.inl rfl)
      next task htask =>
        have htask : (id, task) ∈ x.m_gui_completions := by
          obtain ⟨front, back, heq, -⟩ := List.lookup_eq_some_iff.mp htask
          rw [heq]
          exact List.mem_append_right _ List.mem_cons_self
        -- The executor without the signal and its completion.
        have htaken : ExecutorInv e { x with
            completed := rest
            m_gui_completions := x.m_gui_completions.filter (·.1 ≠ id)
            returning := id :: x.returning } s.journal begun :=
          ((hexecutor.drop hsub).take List.filter_sublist).with_unseen x.alive x.m_drained x.m_retained_tasks _
        have hended := hexecutor.ended_of_mem_completed (by rw [hcompleted]; exact List.mem_cons_self)
        have hlater : ∀ p ∈ rest, id < p.1 := by
          have hsorted := hexecutor.sorted
          rw [hcompleted, List.map_cons, List.pairwise_cons] at hsorted
          exact fun p hp => hsorted.1 p.1 (List.mem_map_of_mem hp)
        dsimp only
        split
        · exact h.set hx ⟨begun, htaken⟩ (.inl rfl)
        next hlives =>
          have hcollects := hexecutor.collects hcompleted htask fun hmem => hlives ((h.destroyed _).mp hmem)
          cases outcome with
          | returned =>
            have hreturned := hexecutor.returned id (by rw [hcompleted]; exact List.mem_cons_self)
            exact h.set_note hx rfl ⟨begun, htaken.collect hended hlater (.inl rfl)⟩ rfl ⟨hreturned, hcollects⟩
          | threw =>
            have hthrew := hexecutor.threw id (by rw [hcompleted]; exact List.mem_cons_self)
            dsimp only
            split
            · exact h.set_note hx rfl ⟨begun, htaken.collect hended hlater (.inr rfl)⟩ rfl ⟨hthrew, hcollects⟩
            · exact h.set hx ⟨begun, htaken⟩ (.inl rfl)
    next => exact h
  next => exact h

omit [DecidableEq R] in
theorem afterCompletion (h : SystemInv s drain_callbacks join_callbacks) (e : E) :
    SystemInv (s.afterCompletion e) drain_callbacks join_callbacks := by
  unfold System.afterCompletion
  split
  next x hx =>
    obtain ⟨begun, hexecutor⟩ := h.executor e x hx
    split
    next id returning hreturning =>
      have hunseen := hexecutor.with_unseen x.alive x.m_drained x.m_retained_tasks returning
      dsimp only
      split
      · exact h.set hx ⟨begun, hunseen⟩ (.inl rfl)
      next hnone =>
        simp only [Bool.or_eq_true, not_or, Bool.not_eq_true] at hnone
        exact h.set hx ⟨begun, hunseen.post_release hnone.2 id⟩ (.inl rfl)
    next => exact h
  next => exact h

omit [DecidableEq R] in
theorem work (h : SystemInv s drain_callbacks join_callbacks) (e : E) :
    SystemInv (s.work e) drain_callbacks join_callbacks := by
  unfold System.work
  split
  next x hx =>
    obtain ⟨begun, hexecutor⟩ := h.executor e x hx
    split
    next id queue hrunning hidle hqueue =>
      obtain ⟨hrun, hrule⟩ := hexecutor.run hidle hqueue hrunning
      exact h.set_note hx rfl ⟨begun + 1, hrun.with_unseen x.alive x.m_drained _ x.returning⟩ rfl hrule
    next id queue hrunning hidle hqueue =>
      have hrelease := hexecutor.release hqueue hrunning
      exact h.set hx ⟨begun, hrelease.with_unseen x.alive x.m_drained _ x.returning⟩ (.inl rfl)
    next queue hrunning hidle hqueue =>
      have hrelease := hexecutor.releaseAll hqueue hidle
      refine h.set hx ⟨begun, hrelease.with_unseen x.alive x.m_drained _ x.returning⟩ (.inr ⟨?_, nofun, nofun⟩)
      rw [hrunning]
      exact ⟨nofun, nofun⟩
    next => exact h
  next => exact h

omit [DecidableEq R] in
theorem taskEnds (h : SystemInv s drain_callbacks join_callbacks) (e : E) (outcome : Outcome) :
    SystemInv (s.taskEnds e outcome) drain_callbacks join_callbacks := by
  unfold System.taskEnds
  split
  next x hx =>
    obtain ⟨begun, hexecutor⟩ := h.executor e x hx
    split
    next id hcurrent =>
      cases outcome with
      | returned =>
        obtain ⟨hends, hrule⟩ := hexecutor.ends hcurrent (.inl ⟨rfl, rfl⟩)
        exact h.set_note hx rfl ⟨begun, hends⟩ rfl hrule
      | threw =>
        obtain ⟨hends, hrule⟩ := hexecutor.ends hcurrent (.inr ⟨rfl, rfl⟩)
        exact h.set_note hx rfl ⟨begun, hends⟩ rfl hrule
    next => exact h
  next => exact h

omit [DecidableEq R] in
theorem quit (h : SystemInv s drain_callbacks join_callbacks) (e : E) :
    SystemInv (s.quit e) drain_callbacks join_callbacks := by
  unfold System.quit
  split
  next x hx =>
    obtain ⟨begun, hexecutor⟩ := h.executor e x hx
    split
    next hthread =>
      refine h.set hx ⟨begun, hexecutor.advance ?_ ?_ .quitting nofun⟩ (.inr ⟨?_, nofun, nofun⟩)
      all_goals
        rw [hthread]
        simp
    next => exact h
  next => exact h

omit [DecidableEq R] in
theorem finish (h : SystemInv s drain_callbacks join_callbacks) (e : E) :
    SystemInv (s.finish e) drain_callbacks join_callbacks := by
  unfold System.finish
  split
  next x hx =>
    obtain ⟨begun, hexecutor⟩ := h.executor e x hx
    split
    next hthread =>
      refine h.set hx ⟨begun, hexecutor.advance ?_ ?_ .finished nofun⟩ (.inr ⟨?_, nofun, nofun⟩)
      all_goals
        rw [hthread]
        simp
    next => exact h
  next => exact h

/-! ### Steps of the registries -/

omit [DecidableEq R] in
theorem construct (h : SystemInv s drain_callbacks join_callbacks) (e : E) (hjoins : join_callbacks = []) :
    SystemInv (s.construct e) drain_callbacks join_callbacks := by
  unfold System.construct
  split
  next => exact h
  next hnone =>
    have hborn := h.unborn e hnone
    have hthread : s.thread e = none := by
      unfold System.thread
      rw [hnone]
      rfl
    refine ⟨fun other y hy => ?_, fun other hother n hn => ?_, ?_, h.waiting.note nofun nofun, fun r => ?_,
      fun hne => absurd hjoins hne, h.keeps.write fun hmem => hborn _ hmem rfl⟩
    · change (s.set e {}).executors other = some y at hy
      by_cases heq : other = e
      · subst heq
        rw [executors_set_self] at hy
        obtain rfl := Option.some.inj hy
        exact ⟨0, .construct hborn⟩
      · rw [executors_set_of_ne heq] at hy
        obtain ⟨begun, hy⟩ := h.executor other y hy
        exact ⟨begun, hy.note_other fun hsame => heq (Option.some.inj hsame).symm⟩
    · change (s.set e {}).executors other = none at hother
      by_cases heq : other = e
      · subst heq
        rw [executors_set_self] at hother
        cases hother
      · rw [executors_set_of_ne heq] at hother
        rcases List.mem_cons.mp hn with rfl | hn
        · exact fun hsame => heq (Option.some.inj hsame).symm
        · exact h.unborn other hother n hn
    · show Registered (s.set e {}).thread _ _ _ _ _
      rw [thread_set]
      exact (h.registered.construct hthread).note nofun
    · exact Iff.trans (by simp [System.note, System.set]) (h.destroyed r)

omit [DecidableEq E] [DecidableEq R] in
/-- The state after a join has started or ended, but for the threads and the joins themselves. -/
theorem with_joins (h : SystemInv s drain_callbacks join_callbacks) {s' : System E R} (notes : List (Note E R))
    (hexecutors : ∀ e x, s'.executors e = some x → ∃ begun, ExecutorInv e x s.journal begun)
    (hunborn : ∀ e, s'.executors e = none → s.executors e = none)
    (hjournal : s'.journal = notes ++ s.journal)
    (hnotes : ∀ n ∈ notes, (∀ e, n.executor ≠ some e) ∧ (∀ number r, n ≠ .asked number r) ∧
      (∀ number, n ≠ .queued number) ∧ ∀ r, n ≠ .destroyed r)
    (hregistered : Registered s'.thread s'.owners_by_thread s'.joining s'.next_join s'.pending_joins s'.journal)
    (hcallbacks : s'.next_callback = s.next_callback ∧ s'.destroyed = s.destroyed)
    (hjoins : join_callbacks ≠ [] → s'.owners_by_thread = [])
    (hkeeps : Keeps Sound s'.journal) : SystemInv s' drain_callbacks join_callbacks := by
  obtain ⟨hnext, hdestroyed⟩ := hcallbacks
  have hmem (n : Note E R) (hn : (∃ e, n.executor = some e) ∨ ∃ r, n = .destroyed r) :
      n ∈ s'.journal ↔ n ∈ s.journal := by
    rw [hjournal, List.mem_append]
    refine ⟨fun hor => hor.resolve_left fun hnote => ?_, .inr⟩
    rcases hn with ⟨e, he⟩ | ⟨r, hr⟩
    · exact (hnotes n hnote).1 e he
    · exact (hnotes n hnote).2.2.2 r hr
  refine ⟨fun e x hx => ?_, fun e he n hn heq => ?_, hregistered, ?_, fun r => ?_, hjoins, hkeeps⟩
  · obtain ⟨begun, hx⟩ := hexecutors e x hx
    exact ⟨begun, hx.frame fun n hn => hmem n (.inl ⟨e, hn⟩)⟩
  · exact h.unborn e (hunborn e he) n ((hmem n (.inl ⟨e, heq⟩)).mp hn) heq
  · rw [hnext, hdestroyed, hjournal]
    clear hjournal hmem hregistered hjoins hkeeps
    induction notes with
    | nil => exact h.waiting
    | cons n notes ih =>
      obtain ⟨-, hasked, hqueued, -⟩ := hnotes n List.mem_cons_self
      exact (ih fun m hm => hnotes m (List.mem_cons_of_mem _ hm)).note hasked hqueued
  · rw [hmem _ (.inr ⟨r, rfl⟩), hdestroyed]
    exact h.destroyed r

theorem finished (h : SystemInv s drain_callbacks join_callbacks) (e : E) :
    SystemInv (s.finished e) drain_callbacks join_callbacks := by
  unfold System.finished
  split
  next x hx =>
    split
    next hthread =>
      obtain ⟨begun, hexecutor⟩ := h.executor e x hx
      have hstage : s.thread e = some .finished := by rw [thread_of hx, hthread]
      obtain ⟨hregistered, hrule⟩ := h.registered.join_executor hstage
      refine h.with_joins [.joinStarted (.executor e)] (fun other y hy => ?_) (fun other hnone => ?_)
        rfl (by simp [Note.executor]) ?_ ⟨rfl, rfl⟩ (fun hne => ?_) (h.keeps.write hrule)
      · change (s.set e { x with thread := .joining }).executors other = some y at hy
        by_cases heq : other = e
        · subst heq
          rw [executors_set_self] at hy
          obtain rfl := Option.some.inj hy
          exact ⟨begun, hexecutor.advance (by rw [hthread]; exact nofun) (by rw [hthread]; exact nofun) _ nofun⟩
        · rw [executors_set_of_ne heq] at hy
          exact h.executor other y hy
      · change (s.set e { x with thread := .joining }).executors other = none at hnone
        by_cases heq : other = e
        · subst heq
          rw [executors_set_self] at hnone
          cases hnone
        · rwa [executors_set_of_ne heq] at hnone
      · show Registered (s.set e { x with thread := .joining }).thread _ _ _ _ _
        rw [thread_set]
        exact hregistered
      · -- The executor is still registered.
        have hmem := (h.registered.owners e).mpr ⟨_, hstage, nofun⟩
        rw [h.joins hne] at hmem
        cases hmem
    next => exact h
  next => exact h

theorem joinThread (h : SystemInv s drain_callbacks join_callbacks) (r : R) :
    SystemInv (s.joinThread r) drain_callbacks join_callbacks := by
  obtain ⟨hregistered, hrule⟩ := h.registered.join_other r
  exact h.with_joins [.joinStarted (.other s.next_join r)] h.executor (fun _ h => h) rfl
    (by simp [Note.executor]) hregistered ⟨rfl, rfl⟩ h.joins (h.keeps.write hrule)

omit [DecidableEq R] in
theorem set_set (s : System E R) (e : E) (x y : BackendExecutor R) : (s.set e x).set e y = s.set e y := by
  unfold System.set
  dsimp only
  rw [Function.update_idem]

theorem joined (h : SystemInv s drain_callbacks join_callbacks) (j : Joining E R) :
    SystemInv (s.joined j) drain_callbacks join_callbacks := by
  unfold System.joined
  split
  · exact h
  next hj =>
  have hj := not_not.mp hj
  cases j with
  | other number r =>
    have hregistered := h.registered.ended hj nofun
    have hkeeps : Keeps Sound (.joinEnded (.other number r) :: s.journal) := h.keeps.write trivial
    dsimp only
    split
    · exact h.with_joins [.joinEnded (.other number r)] h.executor (fun _ h => h) rfl
        (by simp [Note.executor]) hregistered ⟨rfl, rfl⟩ h.joins hkeeps
    next hlives =>
      have hlives : .destroyed r ∉ s.journal := fun hmem => hlives ((h.destroyed r).mp hmem)
      exact h.with_joins [.notified number r, .joinEnded (.other number r)] h.executor (fun _ h => h)
        rfl (by simp [Note.executor]) (hregistered.note nofun) ⟨rfl, rfl⟩ h.joins
        (hkeeps.write (by simpa [Sound] using hlives))
  | executor e =>
    have hstage := (h.registered.joins e).mp hj
    obtain ⟨x, hx, hthread⟩ := Option.map_eq_some_iff.mp hstage
    obtain ⟨begun, hexecutor⟩ := h.executor e x hx
    have hgone : ExecutorInv e { x with thread := .gone } s.journal begun :=
      hexecutor.advance (by rw [hthread]; exact nofun) (by rw [hthread]; exact nofun) _ nofun
    -- The registry without the executor, before `drained` is emitted.
    let s' : System E R := { s with
      joining := s.joining.erase (.executor e)
      pending_joins := s.pending_joins - 1
      calls := .notifyExecutors :: .notifyJoins :: s.calls
      owners_by_thread := s.owners_by_thread.filter (· ≠ e)
      journal := .unregistered e :: .joinEnded (.executor e) :: s.journal }
    have hleft : SystemInv (s'.set e { x with thread := .gone }) drain_callbacks join_callbacks := by
      refine h.with_joins [.unregistered e, .joinEnded (.executor e)] (fun other y hy => ?_)
        (fun other hnone => ?_) rfl (by simp [Note.executor]) ?_ ⟨rfl, rfl⟩ (fun hne => ?_)
        ⟨trivial, trivial, h.keeps⟩
      · by_cases heq : other = e
        · subst heq
          rw [executors_set_self] at hy
          obtain rfl := Option.some.inj hy
          exact ⟨begun, hgone⟩
        · rw [executors_set_of_ne heq] at hy
          exact h.executor other y hy
      · by_cases heq : other = e
        · subst heq
          rw [executors_set_self] at hnone
          cases hnone
        · rwa [executors_set_of_ne heq] at hnone
      · rw [thread_set]
        exact h.registered.ended_executor hj
      · show s.owners_by_thread.filter _ = []
        rw [h.joins hne]
        rfl
    have hx' : s.executors e = some x := hx
    unfold System.executorJoined
    dsimp only [System.note]
    rw [hx']
    dsimp only
    split
    · obtain ⟨hdrain, hrule⟩ := (((hexecutor.note_other (n := .joinEnded (.executor e)) nofun).note_other
        (n := .unregistered e) nofun).drain hthread true)
      have hdrained : SystemInv (((s'.set e { x with thread := .gone }).set e
          { x with thread := .gone, m_drained := true }).note (.drained e)) drain_callbacks join_callbacks :=
        hleft.set_note (executors_set_self s' e _) rfl ⟨begun, hdrain⟩ rfl hrule
      rwa [set_set] at hdrained
    · exact hleft

omit [DecidableEq E] in
theorem queueAll (h : SystemInv s drain_callbacks join_callbacks) (hpending : s.pending_joins = 0) :
    SystemInv (join_callbacks.foldl System.queueCallback s) drain_callbacks [] := by
  induction join_callbacks generalizing s with
  | nil => exact h
  | cons callback callbacks ih =>
    have hnone := h.joins (List.cons_ne_nil _ _)
    rw [List.foldl_cons]
    unfold System.queueCallback
    split
    next hgone =>
      exact ih ⟨h.executor, h.unborn, h.registered, h.waiting.forget List.perm_middle hgone, h.destroyed,
        fun _ => hnone, h.keeps⟩ hpending
    next hlives =>
      obtain ⟨hasked, hnot⟩ := h.waiting.waiting callback (by simp)
      have hregistered := h.registered
      rw [hnone, hpending] at hregistered
      have hborn : ∀ e, .registered e ∈ s.journal → s.thread e ≠ none := fun e hmem hthread =>
        h.unborn e (Option.map_eq_none_iff.mp hthread) _ hmem rfl
      have hrule : Sound (.queued callback.1) s.journal :=
        ⟨hnot, ⟨callback.2, hasked, fun hmem => hlives ((h.destroyed _).mp hmem)⟩, hregistered.closed hborn⟩
      refine ih ⟨fun e x hx => ?_, fun e he n hn => ?_, h.registered.note nofun, h.waiting.queue, fun r => ?_,
        fun _ => hnone, h.keeps.write hrule⟩ hpending
      · obtain ⟨begun, hx⟩ := h.executor e x hx
        exact ⟨begun, hx.note_other nofun⟩
      · rcases List.mem_cons.mp hn with rfl | hn
        · exact nofun
        · exact h.unborn e he n hn
      · exact Iff.trans (by simp [System.note]) (h.destroyed r)

omit [DecidableEq E] in
theorem queueAll_eq (callbacks : List (Nat × R)) (s : System E R) : ∃ journal,
    callbacks.foldl System.queueCallback s = { s with journal } := by
  induction callbacks generalizing s with
  | nil => exact ⟨s.journal, rfl⟩
  | cons callback callbacks ih =>
    rw [List.foldl_cons]
    unfold System.queueCallback
    split
    · exact ih s
    · obtain ⟨journal, heq⟩ := ih (s.note (.queued callback.1))
      exact ⟨journal, heq⟩

omit [DecidableEq E] in
theorem notifyJoins (h : SystemInv s drain_callbacks s.join_callbacks) :
    SystemInv s.notifyJoins drain_callbacks s.notifyJoins.join_callbacks := by
  unfold System.notifyJoins
  split
  · exact h
  next hpending =>
    have hqueue := SystemInv.queueAll (s := { s with join_callbacks := [] })
      ⟨h.executor, h.unborn, h.registered, h.waiting, h.destroyed, h.joins, h.keeps⟩ (not_not.mp hpending)
    obtain ⟨journal, heq⟩ := queueAll_eq s.join_callbacks { s with join_callbacks := [] }
    have hempty : (s.join_callbacks.foldl System.queueCallback
        { s with join_callbacks := [] }).join_callbacks = [] := by rw [heq]
    rw [hempty]
    exact hqueue

omit [DecidableEq E] in
theorem waitForThreadJoins {callback : Nat × R}
    (h : SystemInv s (callback :: drain_callbacks) s.join_callbacks) (howners : s.owners_by_thread = []) :
    SystemInv (s.waitForThreadJoins callback) drain_callbacks (s.waitForThreadJoins callback).join_callbacks :=
  notifyJoins (s := { s with join_callbacks := s.join_callbacks ++ [callback] })
    ⟨h.executor, h.unborn, h.registered, h.waiting.move, h.destroyed, fun _ => howners, h.keeps⟩

omit [DecidableEq E] in
theorem waitForThreadJoins_eq (s : System E R) (callback : Nat × R) : ∃ join_callbacks journal,
    s.waitForThreadJoins callback = { s with join_callbacks, journal } ∧
      (join_callbacks ≠ [] → s.pending_joins ≠ 0) := by
  unfold System.waitForThreadJoins System.notifyJoins
  split
  next hpending => exact ⟨_, _, rfl, fun _ => hpending⟩
  next =>
    obtain ⟨journal, heq⟩ := queueAll_eq (s.join_callbacks ++ [callback]) { s with join_callbacks := [] }
    exact ⟨[], journal, heq, fun hne => absurd rfl hne⟩

omit [DecidableEq E] in
theorem moveAll (h : SystemInv s drain_callbacks s.join_callbacks) (howners : s.owners_by_thread = [])
    (hlive : s.join_callbacks ≠ [] → s.pending_joins ≠ 0 ∨ .notifyJoins ∈ s.calls) : ∃ s',
    drain_callbacks.foldl System.passOn s = s' ∧
    SystemInv s' [] s'.join_callbacks ∧ s'.drain_callbacks = s.drain_callbacks ∧
    (s'.join_callbacks ≠ [] → s'.pending_joins ≠ 0 ∨ .notifyJoins ∈ s'.calls) := by
  induction drain_callbacks generalizing s with
  | nil => exact ⟨s, rfl, h, rfl, hlive⟩
  | cons callback callbacks ih =>
    rw [List.foldl_cons]
    unfold System.passOn
    split
    next hgone =>
      exact ih ⟨h.executor, h.unborn, h.registered, h.waiting.forget (.refl _) hgone, h.destroyed, h.joins,
        h.keeps⟩ howners hlive
    next hlives =>
      obtain ⟨join_callbacks, journal, heq, hpending⟩ := waitForThreadJoins_eq s callback
      have hmoved := h.waitForThreadJoins howners
      rw [heq] at hmoved ⊢
      exact ih hmoved howners fun hne => .inl (hpending hne)

end SystemInv

/-! ## Runs -/

/-- Somebody will look after the callbacks that wait. -/
def Live (s : System E R) : Prop :=
  (s.drain_callbacks ≠ [] → s.owners_by_thread ≠ [] ∨ .notifyExecutors ∈ s.calls) ∧
    (s.join_callbacks ≠ [] → s.pending_joins ≠ 0 ∨ .notifyJoins ∈ s.calls)

structure Inv (s : System E R) : Prop where
  system : SystemInv s s.drain_callbacks s.join_callbacks
  live : Live s

/-- What the callbacks wait in and for. -/
def System.registries (s : System E R) :=
  (s.drain_callbacks, s.join_callbacks, s.owners_by_thread, s.pending_joins, s.calls)

namespace System

variable (s : System E R) (e : E)

omit [DecidableEq R] in
theorem registries_submit (task : Task R) : (s.submit e task).registries = s.registries := by
  unfold submit
  split
  · split_ifs <;> rfl
  · rfl

omit [DecidableEq R] in
theorem registries_shutdown : (s.shutdown e).registries = s.registries := by
  unfold shutdown
  split
  · split_ifs <;> rfl
  · rfl

omit [DecidableEq R] in
theorem registries_destroy : (s.destroy e).registries = s.registries := by
  unfold destroy
  dsimp only
  split
  · exact registries_shutdown s e
  · exact registries_shutdown s e

theorem registries_completed : (s.completed e).registries = s.registries := by
  fun_cases completed s e <;> rfl

omit [DecidableEq R] in
theorem registries_afterCompletion : (s.afterCompletion e).registries = s.registries := by
  fun_cases afterCompletion s e <;> rfl

omit [DecidableEq R] in
theorem registries_work : (s.work e).registries = s.registries := by
  fun_cases work s e <;> rfl

omit [DecidableEq R] in
theorem registries_taskEnds (outcome : Outcome) : (s.taskEnds e outcome).registries = s.registries := by
  unfold taskEnds
  split
  · split <;> rfl
  · rfl

omit [DecidableEq R] in
theorem registries_quit : (s.quit e).registries = s.registries := by
  fun_cases quit s e <;> rfl

omit [DecidableEq R] in
theorem registries_finish : (s.finish e).registries = s.registries := by
  fun_cases finish s e <;> rfl

end System

namespace Inv

omit [DecidableEq E] [DecidableEq R] in
theorem of_system (h : Inv s) {s' : System E R} (heq : s'.registries = s.registries)
    (hsystem : SystemInv s' s.drain_callbacks s.join_callbacks) : Inv s' := by
  obtain ⟨hdrain, hjoin, howners, hpending, hcalls⟩ : _ ∧ _ ∧ _ ∧ _ ∧ _ := by
    simpa [System.registries] using heq
  refine ⟨by rw [hdrain, hjoin]; exact hsystem, ?_⟩
  unfold Live
  rw [hdrain, hjoin, howners, hpending, hcalls]
  exact h.live

omit [DecidableEq E] [DecidableEq R] in
theorem start : Inv ({} : System E R) where
  system :=
    { executor := nofun
      unborn := nofun
      registered := ⟨by simp [System.thread], nofun, by simp [System.thread], nofun, nofun, nofun, by simp, rfl⟩
      waiting := ⟨nofun, nofun, List.nodup_nil, nofun⟩
      destroyed := by simp
      joins := fun h => absurd rfl h
      keeps := trivial }
  live := ⟨fun h => absurd rfl h, fun h => absurd rfl h⟩

omit [DecidableEq R] in
theorem construct (h : Inv s) (hjoins : s.join_callbacks = []) : Inv (s.construct e) := by
  have hsystem := h.system.construct e hjoins
  unfold System.construct at hsystem ⊢
  split
  next x hx => exact h
  next hnone =>
    rw [hnone] at hsystem
    exact ⟨hsystem, fun _ => .inl (by simp [System.note, System.set]), h.live.2⟩

theorem finished (h : Inv s) : Inv (s.finished e) := by
  have hsystem := h.system.finished e
  have hpending := h.system.registered.pending
  unfold System.finished at hsystem ⊢
  split
  next x hx =>
    rw [hx] at hsystem
    dsimp only at hsystem
    split
    next hthread =>
      rw [if_pos hthread] at hsystem
      refine ⟨hsystem, h.live.1, fun _ => .inl ?_⟩
      show s.pending_joins + 1 ≠ 0
      omega
    next => exact h
  next => exact h

theorem joinThread (h : Inv s) (r : R) : Inv (s.joinThread r) := by
  have hpending := h.system.registered.pending
  refine ⟨h.system.joinThread r, h.live.1, fun _ => .inl ?_⟩
  show s.pending_joins + 1 ≠ 0
  omega

theorem joined (h : Inv s) (j : Joining E R) : Inv (s.joined j) := by
  have hsystem := h.system.joined j
  unfold System.joined at hsystem ⊢
  split
  · exact h
  next hj =>
  rw [if_neg hj] at hsystem
  cases j with
  | other number r =>
    dsimp only at hsystem ⊢
    -- The call that comes looks after the callbacks of the joins.
    have hdrain : s.drain_callbacks ≠ [] → s.owners_by_thread ≠ [] ∨ .notifyExecutors ∈ Call.notifyJoins :: s.calls :=
      fun hne => (h.live.1 hne).imp_right (List.mem_cons_of_mem _)
    split
    next hgone =>
      rw [if_pos hgone] at hsystem
      exact ⟨hsystem, hdrain, fun _ => .inr List.mem_cons_self⟩
    next hlives =>
      rw [if_neg hlives] at hsystem
      exact ⟨hsystem, hdrain, fun _ => .inr List.mem_cons_self⟩
  | executor e =>
    dsimp only at hsystem ⊢
    have hcalls {s' : System E R} (hregistries : s'.drain_callbacks = s.drain_callbacks ∧
        s'.join_callbacks = s.join_callbacks ∧ s'.calls = .notifyExecutors :: .notifyJoins :: s.calls)
        (hsystem : SystemInv s' s.drain_callbacks s.join_callbacks) : Inv s' := by
      obtain ⟨hdrain, hjoin, hcalls⟩ := hregistries
      refine ⟨by rw [hdrain, hjoin]; exact hsystem, fun _ => .inr ?_, fun _ => .inr ?_⟩
      · rw [hcalls]
        exact List.mem_cons_self
      · rw [hcalls]
        exact List.mem_cons_of_mem _ List.mem_cons_self
    refine hcalls ?_ hsystem
    unfold System.executorJoined
    dsimp only [System.note]
    split
    · split <;> exact ⟨rfl, rfl, rfl⟩
    · exact ⟨rfl, rfl, rfl⟩

omit [DecidableEq E] in
theorem notifyExecutors (hsystem : SystemInv s s.drain_callbacks s.join_callbacks)
    (hlive : s.join_callbacks ≠ [] → s.pending_joins ≠ 0 ∨ .notifyJoins ∈ s.calls) :
    Inv s.notifyExecutors := by
  unfold System.notifyExecutors
  split
  next howners => exact ⟨hsystem, fun _ => .inl (by simpa using howners), hlive⟩
  next howners =>
    have hempty : s.owners_by_thread = [] := by simpa using howners
    have hsystem : SystemInv { s with drain_callbacks := [] } s.drain_callbacks s.join_callbacks :=
      ⟨hsystem.executor, hsystem.unborn, hsystem.registered, hsystem.waiting, hsystem.destroyed, hsystem.joins,
        hsystem.keeps⟩
    obtain ⟨s', heq, hmoved, hdrain, hlive'⟩ := hsystem.moveAll hempty hlive
    rw [heq]
    have hdrain : s'.drain_callbacks = [] := hdrain
    exact ⟨by rw [hdrain]; exact hmoved, fun hne => absurd hdrain hne, hlive'⟩

omit [DecidableEq E] in
theorem call (h : Inv s) : Inv s.call := by
  unfold System.call
  split
  next calls hcalls =>
    refine notifyExecutors (s := { s with calls }) ⟨h.system.executor, h.system.unborn, h.system.registered,
      h.system.waiting, h.system.destroyed, h.system.joins, h.system.keeps⟩ fun hne => ?_
    have hlive := h.live.2 hne
    rw [hcalls] at hlive
    simpa using hlive
  next calls hcalls =>
    have hlive : s.drain_callbacks ≠ [] → s.owners_by_thread ≠ [] ∨ .notifyExecutors ∈ calls := fun hne => by
      have hlive := h.live.1 hne
      rw [hcalls] at hlive
      simpa using hlive
    have hsystem := SystemInv.notifyJoins (s := { s with calls }) ⟨h.system.executor, h.system.unborn,
      h.system.registered, h.system.waiting, h.system.destroyed, h.system.joins, h.system.keeps⟩
    unfold System.notifyJoins at hsystem ⊢
    split
    next hpending =>
      rw [if_pos hpending] at hsystem
      exact ⟨hsystem, hlive, fun _ => .inl hpending⟩
    next hpending =>
      rw [if_neg hpending] at hsystem
      obtain ⟨journal, heq⟩ := SystemInv.queueAll_eq s.join_callbacks { s with calls, join_callbacks := [] }
      rw [heq] at hsystem ⊢
      exact ⟨hsystem, hlive, fun hne => absurd rfl hne⟩
  next => exact h

theorem shutdownAll (h : Inv s) (r : R) : Inv (s.shutdownAll r) := by
  have hasked : SystemInv ({ s with
      next_callback := s.next_callback + 1
      drain_callbacks := s.drain_callbacks ++ [(s.next_callback, r)] }.note (.asked s.next_callback r))
      (s.drain_callbacks ++ [(s.next_callback, r)]) s.join_callbacks := by
    refine ⟨fun e x hx => ?_, fun e he n hn => ?_, h.system.registered.note nofun, h.system.waiting.ask r,
      fun r => ?_, h.system.joins, h.system.keeps.write fun r hmem => ?_⟩
    · obtain ⟨begun, hx⟩ := h.system.executor e x hx
      exact ⟨begun, hx.note_other nofun⟩
    · rcases List.mem_cons.mp hn with rfl | hn
      · exact nofun
      · exact h.system.unborn e he n hn
    · exact Iff.trans (by simp [System.note]) (h.system.destroyed r)
    · exact absurd (h.system.waiting.asked _ _ hmem).1 (Nat.lt_irrefl _)
  -- Every executor that is registered is shut down.
  have hall (owners : List E) {s' : System E R} (hsystem : SystemInv s' s'.drain_callbacks s'.join_callbacks)
      (hlive : s'.join_callbacks ≠ [] → s'.pending_joins ≠ 0 ∨ .notifyJoins ∈ s'.calls) :
      Inv (owners.foldl System.shutdown s').notifyExecutors := by
    induction owners generalizing s' with
    | nil => exact notifyExecutors hsystem hlive
    | cons e owners ih =>
      obtain ⟨hdrain, hjoin, -, hpending, hcalls⟩ : _ ∧ _ ∧ _ ∧ _ ∧ _ := by
        simpa [System.registries] using System.registries_shutdown s' e
      refine ih ?_ ?_
      · rw [hdrain, hjoin]
        exact hsystem.shutdown e
      · rw [hjoin, hpending, hcalls]
        exact hlive
  exact hall s.owners_by_thread hasked h.live.2

end Inv

/-- No executor is constructed while a callback waits for joins. -/
def Calm (s : System E R) : Event E R → Prop
  | .construct _ => s.join_callbacks = []
  | _ => True

theorem Inv.step (h : Inv s) {event : Event E R} (hcalm : Calm s event) : Inv (step s event) := by
  cases event with
  | construct e => exact h.construct hcalm
  | submit e task => exact h.of_system (s.registries_submit e task) (h.system.submit e task)
  | shutdown e => exact h.of_system (s.registries_shutdown e) (h.system.shutdown e)
  | destroy e => exact h.of_system (s.registries_destroy e) (h.system.destroy e)
  | destroyReceiver r => exact h.of_system rfl (h.system.destroyReceiver r)
  | work e => exact h.of_system (s.registries_work e) (h.system.work e)
  | taskReturns e => exact h.of_system (s.registries_taskEnds e _) (h.system.taskEnds e _)
  | taskThrows e => exact h.of_system (s.registries_taskEnds e _) (h.system.taskEnds e _)
  | completed e => exact h.of_system (s.registries_completed e) (h.system.completed e)
  | afterCompletion e => exact h.of_system (s.registries_afterCompletion e) (h.system.afterCompletion e)
  | quit e => exact h.of_system (s.registries_quit e) (h.system.quit e)
  | finish e => exact h.of_system (s.registries_finish e) (h.system.finish e)
  | finished e => exact h.finished
  | joinThread r => exact h.joinThread r
  | joined j => exact h.joined j
  | call => exact h.call
  | shutdownAll r => exact h.shutdownAll r

/-- The notes follow the rules, and no task and no callback is lost. -/
structure Orderly (s : System E R) : Prop where
  rule : ∀ newer n older, s.journal = newer ++ n :: older → Sound n older
  tasks : ∀ e id r, .accepted e id r ∈ s.journal → .ran e id ∈ s.journal ∨
    ∃ x, s.executors e = some x ∧ x.thread = .running ∧ .runTask id ∈ x.queue
  callbacks : s.calls = [] → s.owners_by_thread = [] → s.pending_joins = 0 →
    ∀ number r, .asked number r ∈ s.journal → .queued number ∈ s.journal ∨ .destroyed r ∈ s.journal

omit [DecidableEq E] [DecidableEq R] in
theorem ExecutorInv.ran_or_waits {x : BackendExecutor R} {begun : Nat} (h : ExecutorInv e x J begun) {id : Nat}
    {r : R} (hid : .accepted e id r ∈ J) :
    .ran e id ∈ J ∨ x.thread = .running ∧ .runTask id ∈ x.queue := by
  obtain ⟨h0, hle⟩ := h.accepted_le id r hid
  rcases Nat.lt_or_ge begun id with hlt | hge
  · have hmem : id ∈ x.queue.filterMap WorkerEvent.task := by
      rw [h.queue, List.mem_range'_1]
      omega
    obtain ⟨event, hevent, htask⟩ := List.mem_filterMap.mp hmem
    obtain rfl : event = .runTask id := by
      cases event with
      | runTask other => exact congrArg _ (Option.some.inj htask)
      | releaseTask => cases htask
      | releaseAllTasks => cases htask
    refine .inr ⟨?_, hevent⟩
    by_contra hnot
    have hstops : x.m_stopping = true := by
      by_contra hworks
      exact hnot (h.works (by simpa using hworks)).1
    rcases h.stops hstops with ⟨hrunning, -⟩ | ⟨-, hempty, -⟩
    · exact hnot hrunning
    · rw [hempty] at hevent
      cases hevent
  · exact .inl ((h.ran id).mpr ⟨h0, hge⟩)

theorem orderly_run (h : Reaches step Calm ({} : System E R) s) : Orderly s := by
  have hinv : Inv s := h.invariant .start fun _ _ hs he => hs.step he
  refine ⟨fun newer n older hjournal => ?_, fun e id r hid => ?_, fun hcalls howners hpending number r hasked => ?_⟩
  · have hkeeps := hinv.system.keeps
    rw [hjournal] at hkeeps
    exact hkeeps.rule
  · cases hx : s.executors e with
    | none => exact absurd rfl (hinv.system.unborn e hx _ hid)
    | some x =>
      obtain ⟨begun, hexecutor⟩ := hinv.system.executor e x hx
      exact (hexecutor.ran_or_waits hid).imp_right fun hwaits => ⟨x, rfl, hwaits⟩
  · have hdrain : s.drain_callbacks = [] := by
      by_contra hne
      rcases hinv.live.1 hne with hlive | hlive
      · exact hlive howners
      · rw [hcalls] at hlive
        cases hlive
    have hjoin : s.join_callbacks = [] := by
      by_contra hne
      rcases hinv.live.2 hne with hlive | hlive
      · exact hlive hpending
      · rw [hcalls] at hlive
        cases hlive
    obtain ⟨-, hqueued | hwaits | hgone⟩ := hinv.system.waiting.asked number r hasked
    · exact .inl hqueued
    · rw [hdrain, hjoin] at hwaits
      cases hwaits
    · exact .inr ((hinv.system.destroyed r).mpr hgone)

/-- Two tasks, of which the second throws, before everything is shut down. -/
def plainRun : List (Event Nat Nat) :=
  [.construct 0, .submit 0 ⟨5, true⟩, .submit 0 ⟨5, true⟩, .work 0, .taskReturns 0, .completed 0,
    .afterCompletion 0, .work 0, .taskThrows 0, .completed 0, .afterCompletion 0, .joinThread 5,
    .shutdownAll 7, .work 0, .work 0, .work 0, .quit 0, .finish 0, .finished 0, .joined (.executor 0), .call,
    .call, .joined (.other 0 5), .call]

theorem orderly_run_plain : Orderly (plainRun.foldl step ({} : System Nat Nat)) := by
  have hstart : Reaches step Calm ({} : System Nat Nat) {} := .refl
  refine orderly_run (hstart.play ?_)
  exact ⟨rfl, trivial, trivial, trivial, trivial, trivial, trivial, trivial, trivial, trivial, trivial, trivial,
    trivial, trivial, trivial, trivial, trivial, trivial, trivial, trivial, trivial, trivial, trivial, trivial,
    trivial⟩

example : (plainRun.foldl step ({} : System Nat Nat)).journal.take 5 =
    [.queued 0, .notified 0 5, .joinEnded (.other 0 5), .drained 0, .unregistered 0] := by decide

end GuiQml.Executors
