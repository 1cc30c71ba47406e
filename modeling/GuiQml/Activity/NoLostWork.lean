import GuiQml.Activity.Schedule

/-!
# No read is stale and no work is lost

The model is a courier of its requests: what is pending waits, the read in flight carries the rest, and
a generation that moved on recalls the read.
-/

namespace GuiQml.Activity

open Courier Runs

/-! ## Frames -/

namespace TransactionActivityModel

variable (s : TransactionActivityModel)

theorem showLoading_eq : ∃ loading error,
    s.showLoading = { s with m_loading := loading, m_load_error := error } := by
  unfold showLoading
  split
  · exact ⟨_, _, rfl⟩
  · exact ⟨s.m_loading, s.m_load_error, rfl⟩

theorem startTimer_eq : ∃ scheduled, s.startTimer = { s with m_scheduled := scheduled } := by
  unfold startTimer
  split
  · exact ⟨s.m_scheduled, rfl⟩
  · exact ⟨true, rfl⟩

theorem schedule_eq : ∃ loading error scheduled,
    s.schedule = { s with m_loading := loading, m_load_error := error, m_scheduled := scheduled } := by
  unfold schedule
  split
  · exact ⟨s.m_loading, s.m_load_error, s.m_scheduled, rfl⟩
  · obtain ⟨loading, error, hshow⟩ := s.showLoading_eq
    obtain ⟨scheduled, htimer⟩ := s.showLoading.startTimer_eq
    refine ⟨loading, error, scheduled, ?_⟩
    rw [htimer, hshow]

@[simp] theorem schedule_pending : s.schedule.m_pending = s.m_pending := by
  obtain ⟨_, _, _, h⟩ := s.schedule_eq
  rw [h]

@[simp] theorem schedule_workPending : s.schedule.m_work_pending = s.m_work_pending := by
  obtain ⟨_, _, _, h⟩ := s.schedule_eq
  rw [h]

@[simp] theorem schedule_generation : s.schedule.m_generation = s.m_generation := by
  obtain ⟨_, _, _, h⟩ := s.schedule_eq
  rw [h]

@[simp] theorem schedule_stopped : s.schedule.m_stopped = s.m_stopped := by
  obtain ⟨_, _, _, h⟩ := s.schedule_eq
  rw [h]

@[simp] theorem schedule_reads : s.schedule.reads = s.reads := by
  obtain ⟨_, _, _, h⟩ := s.schedule_eq
  rw [h]

variable (code : Code) (txid : Txid)

theorem selectDetails_frame : (s.selectDetails txid).m_pending = s.m_pending ∧
    (s.selectDetails txid).m_work_pending = s.m_work_pending ∧
    (s.selectDetails txid).m_generation = s.m_generation ∧
    (s.selectDetails txid).reads = s.reads := by
  unfold selectDetails
  split <;> exact ⟨rfl, rfl, rfl, rfl⟩

theorem previewDetails_frame : (s.previewDetails code txid).m_pending = s.m_pending ∧
    (s.previewDetails code txid).m_work_pending = s.m_work_pending ∧
    (s.previewDetails code txid).m_generation = s.m_generation ∧
    (s.previewDetails code txid).reads = s.reads := by
  unfold previewDetails
  split <;> exact ⟨rfl, rfl, rfl, rfl⟩

theorem requestTransactionDetails_frame :
    (∃ details, (s.requestTransactionDetails code txid).m_pending =
      { s.m_pending with details }) ∧
    (s.requestTransactionDetails code txid).m_work_pending = s.m_work_pending ∧
    (s.requestTransactionDetails code txid).m_generation = s.m_generation ∧
    (s.requestTransactionDetails code txid).reads = s.reads := by
  unfold requestTransactionDetails
  split
  · exact ⟨⟨_, rfl⟩, rfl, rfl, rfl⟩
  · obtain ⟨hp, hw, hg, hr⟩ := previewDetails_frame
      (({ s with m_detail_generation := s.m_detail_generation + 1 }).selectDetails txid) code txid
    obtain ⟨hp', hw', hg', hr'⟩ := selectDetails_frame
      { s with m_detail_generation := s.m_detail_generation + 1 } txid
    simp only [schedule_pending, schedule_workPending, schedule_generation, schedule_reads]
    exact ⟨⟨_, by rw [hp, hp']⟩, hw.trans hw', hg.trans hg', hr.trans hr'⟩

variable (read : Read) (result : Snapshot)

@[simp] theorem apply_pending : (s.apply read result).m_pending = s.m_pending := by
  simp only [apply]
  split <;> rfl

@[simp] theorem apply_workPending : (s.apply read result).m_work_pending = s.m_work_pending := by
  simp only [apply]
  split <;> rfl

@[simp] theorem apply_generation : (s.apply read result).m_generation = s.m_generation := by
  simp only [apply]
  split <;> rfl

@[simp] theorem apply_reads : (s.apply read result).reads = s.reads := by
  simp only [apply]
  split <;> rfl

variable {s} {read} {result}

/-- The end of a read does not start a stopped model again. -/
theorem readReturned_stopped (h : (s.readReturned read result).m_stopped = false) :
    s.m_stopped = false := by
  by_contra hs
  have hs : s.m_stopped = true := by simpa using hs
  simp [readReturned, hs] at h

theorem readThrew_stopped (h : (s.readThrew read).m_stopped = false) : s.m_stopped = false := by
  by_contra hs
  have hs : s.m_stopped = true := by simpa using hs
  simp [readThrew, hs] at h

/-- What the end of a read leaves of the work. -/
def AfterRead (s s' : TransactionActivityModel) (pending : Work) : Prop :=
  s'.m_pending = pending ∧ s'.m_work_pending = false ∧ s'.m_generation = s.m_generation ∧
    s'.reads = s.reads

variable (result) in
theorem readReturned_superseded (hs : s.m_stopped = false) (h : read.generation ≠ s.m_generation) :
    AfterRead s (s.readReturned read result) (s.m_pending.merge read.work) := by
  simp [AfterRead, readReturned, settle, hs, h]

variable (result) in
theorem readReturned_current (hs : s.m_stopped = false) (h : read.generation = s.m_generation) :
    AfterRead s (s.readReturned read result) s.m_pending := by
  simp [AfterRead, readReturned, settle, hs, h]

theorem readThrew_superseded (hs : s.m_stopped = false) (h : read.generation ≠ s.m_generation) :
    AfterRead s (s.readThrew read) (s.m_pending.merge read.work) := by
  simp [AfterRead, readThrew, settle, hs, h]

theorem readThrew_current (hs : s.m_stopped = false) (h : read.generation = s.m_generation) :
    AfterRead s (s.readThrew read) s.m_pending := by
  unfold AfterRead readThrew
  by_cases hd : read.detail_generation = s.m_detail_generation
  · simp [settle, hs, h, hd]
  · simp [settle, hs, h, hd]

end TransactionActivityModel

theorem Work.items_merge (work other : Work) :
    (work.merge other).items = work.items ∪ other.items := by
  ext item
  cases item <;> simp [Work.items, Work.merge]

theorem Work.items_empty : ({} : Work).items = ∅ := by
  ext item
  cases item <;> simp [Work.items]

/-! ## One step -/

/-- The courier's ledger of a running model. -/
structure Ledgered (s : TransactionActivityModel) (l : Ledger Item Read) : Prop where
  waiting : s.m_pending.items = l.waiting
  aboard : s.reads = l.aboard.toList
  busy : s.m_work_pending = l.aboard.isSome
  generation : ∀ read ∈ s.reads, read.generation ≤ s.m_generation ∧
    (l.recalled ↔ read.generation ≠ s.m_generation)

/-- The courier that carries the work of a read. -/
abbrev CourierStep : Ledger Item Read → List Event → Ledger Item Read → Prop :=
  Courier.Step (·.work.items) superseding

section Step

variable {code : Code} {s s' : TransactionActivityModel} {es : List Event} {l : Ledger Item Read}

/-- A request adds its item, and an urgent one moves the generation. -/
theorem Ledgered.request (h : Ledgered s l) {item : Item} {n : Nat}
    (hpending : s'.m_pending.items = insert item s.m_pending.items) (hreads : s'.reads = s.reads)
    (hbusy : s'.m_work_pending = s.m_work_pending) (hgeneration : s'.m_generation = s.m_generation + n)
    (hn : 0 < n ↔ item ∈ superseding) :
    ∃ l', CourierStep l [.request item] l' ∧ Ledgered s' l' := by
  refine ⟨_, .request item, ?_, ?_, ?_, ?_⟩
  · rw [hpending, h.waiting]
  · rw [hreads]
    exact h.aboard
  · rw [hbusy]
    exact h.busy
  · rw [hreads, hgeneration]
    intro read hread
    obtain ⟨hle, hrecalled⟩ := h.generation read hread
    refine ⟨by omega, ?_⟩
    rw [hrecalled, ← hn]
    omega

theorem Ledgered.frame (h : Ledgered s l) (hpending : s'.m_pending.items = s.m_pending.items)
    (hreads : s'.reads = s.reads) (hbusy : s'.m_work_pending = s.m_work_pending)
    (hgeneration : s'.m_generation = s.m_generation) : Ledgered s' l := by
  refine ⟨?_, ?_, ?_, ?_⟩
  · rw [hpending]
    exact h.waiting
  · rw [hreads]
    exact h.aboard
  · rw [hbusy]
    exact h.busy
  · rw [hreads, hgeneration]
    exact h.generation

theorem Ledgered.head (h : Ledgered s l) {read : Read} {reads : List Read}
    (hread : s.reads = read :: reads) : l.aboard = some read ∧ reads = [] := by
  have haboard := h.aboard
  rw [hread] at haboard
  cases hl : l.aboard with
  | none => simp [hl] at haboard
  | some job =>
    simp only [hl, Option.toList_some, List.cons.injEq] at haboard
    exact ⟨by rw [haboard.1], haboard.2⟩

theorem ledgered_idle {items : Set Item} {recalled : Prop} (hpending : s'.m_pending.items = items)
    (hreads : s'.reads = []) (hbusy : s'.m_work_pending = false) :
    Ledgered s' ⟨items, none, recalled⟩ := by
  refine ⟨hpending, hreads, hbusy, ?_⟩
  rw [hreads]
  exact List.forall_mem_nil _

/-- The timer sends what is pending, unless a read is in flight or nothing is pending. -/
theorem Ledgered.startWork (h : Ledgered s l) :
    (s.startWork.2 = none ∧ Ledgered s.startWork.1 l) ∨
      ∃ l', CourierStep l (s.startWork.2.toList.map .depart) l' ∧ Ledgered s.startWork.1 l' := by
  unfold TransactionActivityModel.startWork
  dsimp only
  split
  · exact .inl ⟨rfl, h.frame rfl rfl rfl rfl⟩
  · rename_i hidle
    simp only [Bool.or_eq_true, not_or, Bool.not_eq_true] at hidle
    obtain ⟨⟨⟨-, hbusy⟩, -⟩, -⟩ := hidle
    rw [h.busy, Option.isSome_eq_false_iff, Option.isNone_iff_eq_none] at hbusy
    have hreads : s.reads = [] := by
      rw [h.aboard, hbusy]
      rfl
    refine .inr ⟨_, .depart _ hbusy h.waiting, Work.items_empty, ?_, rfl, ?_⟩
    · rw [hreads]
      rfl
    · rw [hreads]
      intro read hread
      obtain rfl := List.mem_singleton.mp hread
      simp

variable {read : Read}

theorem ending_superseded {result : Option Snapshot} (hs : s.m_stopped = false)
    (h : read.generation ≠ s.m_generation) : ending s read result = [.bounce read] := by
  simp [ending, hs, h]

theorem ending_delivered {result : Snapshot} (hs : s.m_stopped = false)
    (h : read.generation = s.m_generation) :
    ending s read (some result) = [.deliver read result] := by
  simp [ending, hs, h]

theorem ending_lost (hs : s.m_stopped = false) (h : read.generation = s.m_generation) :
    ending s read none = [.lose read] := by
  simp [ending, hs, h]

/-- A read that ends on a running model bounces when the generation moved on. -/
theorem Ledgered.bounce (h : Ledgered s l) {read : Read} {reads : List Read}
    (hread : s.reads = read :: reads) (hgeneration : read.generation ≠ s.m_generation)
    (hpending : s'.m_pending = s.m_pending.merge read.work) (hreads : s'.reads = reads)
    (hbusy : s'.m_work_pending = false) :
    ∃ l', CourierStep l [.bounce read] l' ∧ Ledgered s' l' := by
  obtain ⟨haboard, rfl⟩ := h.head hread
  have hrecalled : l.recalled :=
    (h.generation read (by rw [hread]; exact List.mem_cons_self)).2.mpr hgeneration
  refine ⟨_, .bounce read haboard hrecalled, ledgered_idle ?_ hreads hbusy⟩
  rw [hpending, Work.items_merge, h.waiting]

/-- Otherwise it is applied or given up. -/
theorem Ledgered.settled (h : Ledgered s l) {read : Read} {reads : List Read}
    (hread : s.reads = read :: reads) (hgeneration : read.generation = s.m_generation)
    (hpending : s'.m_pending = s.m_pending) (hreads : s'.reads = reads)
    (hbusy : s'.m_work_pending = false) :
    (∀ result, ∃ l', CourierStep l [.deliver read result] l' ∧ Ledgered s' l') ∧
      ∃ l', CourierStep l [.lose read] l' ∧ Ledgered s' l' := by
  obtain ⟨haboard, rfl⟩ := h.head hread
  have hrecalled : ¬ l.recalled := fun hrecalled =>
    (h.generation read (by rw [hread]; exact List.mem_cons_self)).2.mp hrecalled hgeneration
  have hidle : Ledgered s' ⟨l.waiting, none, l.recalled⟩ :=
    ledgered_idle (by rw [hpending, h.waiting]) hreads hbusy
  exact ⟨fun result => ⟨_, .deliver read result haboard hrecalled, hidle⟩,
    _, .lose read haboard hrecalled, hidle⟩

theorem Ledgered.step (h : Ledgered s l) (hstep : Step code s es s')
    (hrunning : s'.m_stopped = false) :
    (es = [] ∧ Ledgered s' l) ∨
      ∃ l', CourierStep l es l' ∧ Ledgered s' l' := by
  cases hstep with
  | reload =>
    refine .inr (h.request (n := 1) ?_ ?_ ?_ ?_ ?_)
    all_goals simp [TransactionActivityModel.reload, superseding]
    ext item
    cases item <;> simp [Work.items]
  | updateTransaction txid =>
    refine .inr (h.request (n := 1) ?_ ?_ ?_ ?_ ?_)
    all_goals simp [TransactionActivityModel.updateTransaction, superseding]
    ext item
    cases item <;> simp [Work.items]
  | addressListChanged =>
    refine .inr (h.request (n := 1) ?_ ?_ ?_ ?_ ?_)
    all_goals simp [TransactionActivityModel.addressListChanged, superseding]
    ext item
    cases item <;> simp [Work.items]
  | refreshStatuses =>
    refine .inr (h.request (n := 0) ?_ ?_ ?_ ?_ ?_)
    all_goals simp [TransactionActivityModel.refreshStatuses, superseding]
    ext item
    cases item <;> simp [Work.items]
  | poll =>
    refine .inr (h.request (n := 0) ?_ ?_ ?_ ?_ ?_)
    all_goals simp [TransactionActivityModel.poll, superseding]
    ext item
    cases item <;> simp [Work.items]
  | requestTransactionDetails txid =>
    obtain ⟨⟨details, hpending⟩, hbusy, hgeneration, hreads⟩ :=
      s.requestTransactionDetails_frame code txid
    refine .inl ⟨rfl, h.frame ?_ hreads hbusy hgeneration⟩
    rw [hpending]
    rfl
  | stop =>
    unfold TransactionActivityModel.stop at hrunning ⊢
    split
    · exact .inl ⟨rfl, h⟩
    · exact .inl ⟨rfl, h.frame rfl rfl rfl rfl⟩
  | setWallet wallet => exact .inl ⟨rfl, h.frame rfl rfl rfl rfl⟩
  | startWork =>
    rcases h.startWork with ⟨hnone, hframe⟩ | hdepart
    · exact .inl ⟨by rw [hnone]; rfl, hframe⟩
    · exact .inr hdepart
  | @readReturned read reads wallet hreads =>
    have hs := TransactionActivityModel.readReturned_stopped hrunning
    have hs' : s.m_stopped = false := hs
    refine .inr ?_
    by_cases hg : read.generation = s.m_generation
    · obtain ⟨hpending, hbusy, -, hrest⟩ := TransactionActivityModel.readReturned_current
        (readSnapshot code wallet read.snapshot read.work) hs hg
      rw [ending_delivered hs' hg]
      exact (h.settled hreads hg hpending hrest hbusy).1 _
    · obtain ⟨hpending, hbusy, -, hrest⟩ := TransactionActivityModel.readReturned_superseded
        (readSnapshot code wallet read.snapshot read.work) hs hg
      rw [ending_superseded hs' hg]
      exact h.bounce hreads hg hpending hrest hbusy
  | @readThrew read reads hreads =>
    have hs := TransactionActivityModel.readThrew_stopped hrunning
    have hs' : s.m_stopped = false := hs
    refine .inr ?_
    by_cases hg : read.generation = s.m_generation
    · obtain ⟨hpending, hbusy, -, hrest⟩ := TransactionActivityModel.readThrew_current hs hg
      rw [ending_lost hs' hg]
      exact (h.settled hreads hg hpending hrest hbusy).2
    · obtain ⟨hpending, hbusy, -, hrest⟩ := TransactionActivityModel.readThrew_superseded hs hg
      rw [ending_superseded hs' hg]
      exact h.bounce hreads hg hpending hrest hbusy

theorem step_stopped (hstep : Step code s es s') (hrunning : s'.m_stopped = false) :
    s.m_stopped = false := by
  cases hstep with
  | reload => simpa [TransactionActivityModel.reload] using hrunning
  | updateTransaction txid => simpa [TransactionActivityModel.updateTransaction] using hrunning
  | addressListChanged => simpa [TransactionActivityModel.addressListChanged] using hrunning
  | refreshStatuses => simpa [TransactionActivityModel.refreshStatuses] using hrunning
  | poll => simpa [TransactionActivityModel.poll] using hrunning
  | requestTransactionDetails txid =>
    unfold TransactionActivityModel.requestTransactionDetails at hrunning
    split at hrunning
    · exact hrunning
    · rename_i hs
      simpa using hs
  | stop =>
    unfold TransactionActivityModel.stop at hrunning
    split at hrunning
    · exact hrunning
    · cases hrunning
  | setWallet => exact hrunning
  | startWork =>
    simp only [TransactionActivityModel.startWork] at hrunning
    split at hrunning <;> exact hrunning
  | readReturned wallet hreads =>
    have hs := TransactionActivityModel.readReturned_stopped hrunning
    exact hs
  | readThrew hreads =>
    have hs := TransactionActivityModel.readThrew_stopped hrunning
    exact hs

/-- What is delivered is what a read of some wallet returned. -/
theorem step_delivers (hstep : Step code s es s') {result : Snapshot}
    (h : .deliver read result ∈ es) :
    ∃ wallet, result = readSnapshot code wallet read.snapshot read.work := by
  cases hstep with
  | readReturned wallet hreads =>
    refine ⟨wallet, ?_⟩
    unfold ending at h
    split at h
    · cases h
    split at h
    · simp at h
    · obtain ⟨rfl, rfl⟩ : read = _ ∧ result = _ := by simpa using h
      rfl
  | readThrew hreads =>
    unfold ending at h
    split at h
    · cases h
    split at h <;> simp at h
  | startWork => simp at h
  | _ => simp at h

end Step

/-! ## Whole runs -/

section Runs

variable {code : Code} {s : TransactionActivityModel} {log post : List Event} {wallet : Bool}
  {item : Item}

theorem run_ledgered (h : Run (Step code) { wallet } s log) (hrunning : s.m_stopped = false) :
    ∃ l, Run CourierStep Ledger.start l log ∧ Ledgered s l := by
  induction h with
  | nil => exact ⟨_, .nil, Work.items_empty, rfl, rfl, List.forall_mem_nil _⟩
  | snoc _ hstep ih =>
    obtain ⟨l, hl, hledger⟩ := ih (step_stopped hstep hrunning)
    rcases hledger.step hstep hrunning with ⟨rfl, hframe⟩ | ⟨l', hcourier, hledger'⟩
    · exact ⟨l, by rwa [List.append_nil], hframe⟩
    · exact ⟨l', .snoc hl hcourier, hledger'⟩

theorem run_delivers (h : Run (Step code) { wallet } s log) :
    ∀ read result, .deliver read result ∈ log →
      ∃ wallet, result = readSnapshot code wallet read.snapshot read.work := by
  induction h with
  | nil =>
    intro read result hmem
    cases hmem
  | snoc _ hstep ih =>
    intro read result hmem
    rcases List.mem_append.mp hmem with hmem | hmem
    · exact ih read result hmem
    · exact step_delivers hstep hmem

/-- Where the item of a request is, by the events after the request. -/
inductive Held (s : TransactionActivityModel) (item : Item) (post : List Event) : Prop
  | pending : item ∈ s.m_pending.items → Held s item post
  | inFlight {read rest} : read ∈ s.reads → Boarded (·.work.items) item post read rest →
      Held s item post
  | applied {read rest result later} :
      Boarded (·.work.items) item post read (rest ++ .deliver read result :: later) →
      Held s item post
  | givenUp {read rest later} :
      Boarded (·.work.items) item post read (rest ++ .lose read :: later) →
      Calm superseding rest → Held s item post

/-- At most one read is in flight. No request that supersedes it came between the start of a read and
its application. What was requested is pending, in flight, applied by a read that started later, or was
carried by a later read that threw and was not superseded. -/
theorem work_not_lost (hrun : Run (Step code) { wallet } s log) (hrunning : s.m_stopped = false) :
    s.reads.length ≤ 1 ∧
    (∀ pre read result post, log = pre ++ .deliver read result :: post →
      CalmSince superseding read pre ∧
        ∃ wallet, result = readSnapshot code wallet read.snapshot read.work) ∧
    ∀ pre item post, log = pre ++ .request item :: post → Held s item post := by
  obtain ⟨l, hl, hledger⟩ := run_ledgered hrun hrunning
  refine ⟨?_, ?_, ?_⟩
  · rw [hledger.aboard]
    cases l.aboard <;> simp
  · intro pre read result post hlog
    exact ⟨run_calm hl pre _ post hlog read (.inl ⟨result, rfl⟩),
      run_delivers hrun read result (by simp [hlog])⟩
  · intro pre item post hlog
    cases run_fate hl pre hlog with
    | waiting hwait =>
      rw [← hledger.waiting] at hwait
      exact .pending hwait
    | aboard haboard hboard =>
      refine .inFlight ?_ hboard
      rw [hledger.aboard, haboard]
      exact List.mem_singleton_self _
    | delivered hboard => exact .applied hboard
    | lost hboard hcalm => exact .givenUp hboard hcalm

end Runs

/-! ## Two short runs -/

/-- Transactions without activity. -/
def plainCode : Code where
  isHash _ := true
  fromWalletTx _ := none
  buildTransactionFlow _ _ _ := {}
  encodeHexTx _ := ""

def emptyWallet : Wallet where
  getWalletTxs := []
  getWalletTx _ := {}
  getTx _ := none
  tryGetTxStatus _ := none
  tryGetBalances := none
  addressLabel _ := ""
  transactionCanBeBumped _ := false

/-- The constructor's reload, and its read. -/
def reading : TransactionActivityModel :=
  ({ wallet := true } : TransactionActivityModel).reload.startWork.1

def firstRead : Read :=
  ⟨({ wallet := true } : TransactionActivityModel).reload.snapshot, { reload := true }, 1, 0⟩

theorem run_reading :
    Run (Step plainCode) { wallet := true } reading [.request .reload, .depart firstRead] :=
  .snoc (.snoc .nil Step.reload) (Step.startWork rfl)

/-- The statuses wait for the next read, and the first one is applied. -/
theorem work_not_lost_reload :
    Held ({ reading.refreshStatuses with reads := [] }.readReturned firstRead
        (readSnapshot plainCode emptyWallet firstRead.snapshot firstRead.work)) .statuses
      [.deliver firstRead (readSnapshot plainCode emptyWallet firstRead.snapshot firstRead.work)] :=
  (work_not_lost (.snoc (.snoc run_reading .refreshStatuses) (.readReturned emptyWallet rfl)) rfl).2.2
    [.request .reload, .depart firstRead] .statuses _ rfl

/-- When the first read throws, its reload is not pending, not in flight and never applied. -/
theorem failed_read_drops_reload :
    let s := { reading with reads := [] }.readThrew firstRead
    let log : List Event := [.request .reload, .depart firstRead, .lose firstRead]
    Run (Step plainCode) { wallet := true } s log ∧ s.m_stopped = false ∧
      .reload ∉ s.m_pending.items ∧ s.reads = [] ∧ ∀ read result, .deliver read result ∉ log := by
  intro s log
  have hstep : Step plainCode reading (ending reading firstRead none) s := Step.readThrew rfl
  have hrun : Run (Step plainCode) { wallet := true } s log := .snoc run_reading hstep
  have hpending : s.m_pending = {} := rfl
  refine ⟨hrun, rfl, ?_, rfl, by simp [log]⟩
  rw [hpending, Work.items_empty]
  exact Set.notMem_empty _

end GuiQml.Activity
