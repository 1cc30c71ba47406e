import GuiQml.BlockClock.Subscribe
import GuiQml.Lib.Run
import Mathlib.Data.List.Nodup

/-!
# Reconciling events with the snapshot

However the events are delivered around the snapshot, each hash ends as its last event leaves it.
-/

namespace GuiQml.BlockClock

open Runs LastWrite

/-! ## Calls on the history -/

/-- A call while the subscription lives. The snapshot is the one the worker loaded, and the
retention start stays the same. -/
inductive Op
  | blockConnected (historical : Bool) (hash : Hash)
  | blockDisconnected (hash : Hash)
  | initializeWith
  | takeSnapshot
  | setChangedCallback (callback : Bool)
  | setRetentionStart
  deriving DecidableEq, Repr

/-- What a call leaves in the log. -/
structure Entry where
  before : BlockClockHistory
  op : Op
  result : Option (List Int)
  after : BlockClockHistory

section Step

variable (time : Hash → Int) (r : Int) (blocks : Blocks) (s : BlockClockHistory)

def Op.after : Op → BlockClockHistory
  | .blockConnected historical hash => (s.blockConnected historical hash (time hash)).1
  | .blockDisconnected hash => (s.blockDisconnected hash (time hash)).1
  | .initializeWith => (s.initializeWith blocks).1
  | .takeSnapshot => s.takeSnapshot.2
  | .setChangedCallback callback => (s.setChangedCallback callback).1
  | .setRetentionStart => s.setRetentionStart r

def Op.result : Op → Option (List Int)
  | .takeSnapshot => s.takeSnapshot.1
  | _ => none

def perform (op : Op) : Entry := ⟨s, op, op.result s, op.after time r blocks s⟩

def HistoryStep (s : BlockClockHistory) (es : List Entry) (s' : BlockClockHistory) : Prop :=
  ∃ op, es = [perform time r blocks s op] ∧ s' = op.after time r blocks s

/-- The calls in order. -/
def performAll (ops : List Op) : BlockClockHistory × List Entry :=
  ops.foldl (fun p op =>
    (op.after time r blocks p.1, p.2 ++ [perform time r blocks p.1 op])) (s, [])

theorem run_performAll (ops : List Op) : Run (HistoryStep time r blocks) s
    (performAll time r blocks s ops).1 (performAll time r blocks s ops).2 := by
  induction ops using List.reverseRecOn with
  | nil => exact .nil
  | append_singleton ops op ih =>
    simp only [performAll, List.foldl_append, List.foldl_cons, List.foldl_nil] at ih ⊢
    exact .snoc ih ⟨op, rfl, rfl⟩

end Step

/-- The event of the active chain that a call delivers. -/
def Op.event : Op → Option ChainEvent
  | .blockConnected false hash => some (.connect hash)
  | .blockDisconnected hash => some (.disconnect hash)
  | _ => none

def delivered (log : List Entry) : List ChainEvent := log.filterMap (·.op.event)

def Initialized (log : List Entry) : Prop := .initializeWith ∈ log.map (·.op)

/-- The call changed the set of blocks, or installed the first one. -/
def Entry.Alters (e : Entry) : Prop :=
  e.after.m_blocks ≠ e.before.m_blocks ∨
    e.op = .initializeWith ∧ e.before.m_initialized = false

/-- Some call altered the set, and no snapshot was returned since. -/
def MayHaveChanged : List Entry → Prop := Since Entry.Alters (·.result ≠ none)

/-! ## What one call does -/

section Step

variable {time : Hash → Int} {blocks : Blocks} {s : BlockClockHistory} {r : Int}
  {log : List Entry}

/-- What the history holds after the calls of `log`. -/
structure Reconciled (time : Hash → Int) (blocks : Blocks) (r : Int) (s : BlockClockHistory)
    (log : List Entry) : Prop where
  running : s.m_stopped = false
  retention : s.m_retention_start = r
  initialized : s.m_initialized = true ↔ Initialized log
  pending : s.m_initialized = false → s.m_blocks = ∅ ∧ ∀ hash, s.m_pending[hash]? =
    if r ≤ time hash then last ((delivered log).map (·.write time)) hash else none
  blocks : s.m_initialized = true → ∀ hash, s.m_blocks[hash]? =
    if r ≤ time hash then apply (blocks[·]?) ((delivered log).map (·.write time)) hash else none
  dirty : (s.m_initialized && s.m_dirty) = true ↔ MayHaveChanged log

/-- All timestamps of the map are those of their hashes. -/
def Timed (time : Hash → Int) (store : Hash → Option Int) : Prop :=
  ∀ hash timestamp, store hash = some timestamp → timestamp = time hash

theorem Timed.apply {store : Hash → Option Int} (h : Timed time store) (events : List ChainEvent) :
    Timed time (LastWrite.apply store (events.map (·.write time))) := by
  induction events using List.reverseRecOn with
  | nil => exact h
  | append_singleton events event ih =>
    intro hash timestamp hx
    rw [List.map_append, List.map_singleton, apply_snoc, Function.update_apply] at hx
    split at hx
    · rename_i heq
      cases event <;> simp_all [ChainEvent.write]
    · exact ih hash timestamp hx

theorem start_reconciled (time : Hash → Int) (blocks : Blocks) (r : Int) :
    Reconciled time blocks r (({} : BlockClockHistory).setRetentionStart r) [] := by
  have h : (({} : BlockClockHistory).setRetentionStart r).m_initialized = false := by
    simp only [BlockClockHistory.setRetentionStart]
    split <;> rfl
  refine ⟨?_, ?_, by simp [h, Initialized], fun _ => ⟨?_, fun hash => ?_⟩, by simp [h], ?_⟩
  all_goals simp only [BlockClockHistory.setRetentionStart]
  · split <;> rfl
  · split <;> simp_all
  · split
    · rfl
    · exact Std.ExtTreeMap.ext_getElem? fun hash => by simp
  · split <;> simp [delivered]
  · split <;> simp [MayHaveChanged, not_since_nil]

theorem delivered_snoc (e : Entry) :
    delivered (log ++ [e]) = delivered log ++ e.op.event.toList := by
  unfold delivered
  rw [List.filterMap_append]
  cases h : e.op.event <;> simp [h]

theorem initialized_snoc (e : Entry) :
    Initialized (log ++ [e]) ↔ Initialized log ∨ e.op = .initializeWith := by
  simp [Initialized, eq_comm]

theorem mayHaveChanged_snoc (e : Entry) :
    MayHaveChanged (log ++ [e]) ↔ e.Alters ∨ MayHaveChanged log ∧ e.result = none := by
  unfold MayHaveChanged
  rw [since_snoc, not_not]

theorem Reconciled.quiet (h : Reconciled time blocks r s log) {op : Op} {c d : Bool}
    (hev : op.event = none) (hop : op = .initializeWith → s.m_initialized = true)
    (hafter : op.after time r blocks s = { s with m_changed := c, m_dirty := d })
    (hd : (s.m_initialized && d) = true ↔
      (s.m_initialized && s.m_dirty) = true ∧ op.result s = none) :
    Reconciled time blocks r (op.after time r blocks s) (log ++ [perform time r blocks s op]) := by
  have hdel : delivered (log ++ [perform time r blocks s op]) = delivered log := by
    rw [delivered_snoc]
    simp [perform, hev]
  have halters : ¬ (perform time r blocks s op).Alters := by
    rintro (hne | ⟨hinit, hi⟩)
    · exact hne (by simp [perform, hafter])
    · exact Bool.false_ne_true (hi.symm.trans (hop hinit))
  rw [hafter]
  refine ⟨h.running, h.retention, ?_, ?_, ?_, ?_⟩
  · rw [initialized_snoc, ← h.initialized]
    exact (or_iff_left_of_imp hop).symm
  · rw [hdel]
    exact h.pending
  · rw [hdel]
    exact h.blocks
  · rw [mayHaveChanged_snoc, ← h.dirty]
    exact hd.trans (or_iff_right halters).symm

theorem Reconciled.record (h : Reconciled time blocks r s log) (connected : Bool)
    (ht : Timed time (blocks[·]?)) {op : Op} {hash : Hash} {event : ChainEvent} (hev : op.event = some event)
    (hwrite : event.write time = (hash, if connected then some (time hash) else none))
    (hafter : op.after time r blocks s = (s.record hash (time hash) connected).1) :
    Reconciled time blocks r (op.after time r blocks s) (log ++ [perform time r blocks s op]) := by
  obtain ⟨hrun, hret, hinit⟩ :=
    @BlockClockHistory.record_frame s hash (time hash) connected
  have hr := h.retention
  have hop : op ≠ .initializeWith := by
    rintro rfl
    cases hev
  have hresult : (perform time r blocks s op).result = none := by
    cases op <;> simp_all [perform, Op.event, Op.result]
  have hdel : (delivered (log ++ [perform time r blocks s op])).map (·.write time) =
      (delivered log).map (·.write time) ++ [(hash, if connected then some (time hash) else none)] := by
    rw [delivered_snoc, List.map_append, ← hwrite]
    simp [perform, hev]
  have halters : (perform time r blocks s op).Alters ↔
      (s.record hash (time hash) connected).1.m_blocks ≠ s.m_blocks := by
    simp [Entry.Alters, perform, hafter, hop]
  rw [hafter]
  refine ⟨hrun.trans h.running, hret.trans h.retention, ?_, ?_, ?_, ?_⟩
  · rw [hinit, initialized_snoc, h.initialized]
    exact (or_iff_left hop).symm
  · intro hi
    rw [hinit] at hi
    obtain ⟨hempty, hpending⟩ := h.pending hi
    by_cases hold : r ≤ time hash
    · rw [BlockClockHistory.record_pending h.running hi (by omega)]
      refine ⟨hempty, fun x => ?_⟩
      rw [hdel, last_snoc]
      by_cases hx : hash = x
      · subst hx
        simp [hold]
      · simp [hx, Std.ExtTreeMap.getElem?_insert, hpending]
    · rw [BlockClockHistory.record_old (by omega)]
      refine ⟨hempty, fun x => ?_⟩
      rw [hdel, last_snoc, hpending]
      by_cases hx : hash = x
      · subst hx
        simp [hold]
      · simp [hx]
  · intro hi x
    rw [hinit] at hi
    rw [BlockClockHistory.getElem?_record h.running hi, hdel, apply_snoc, Function.update_apply,
      h.retention, h.blocks hi]
    by_cases hx : hash = x
    · subst hx
      by_cases hold : r ≤ time hash
      · -- a hash that is there already has the timestamp the event carries
        have htimed := ht.apply (delivered log) hash
        cases hget : apply (blocks[·]?) ((delivered log).map (·.write time)) hash with
        | none => simp [hold]
        | some timestamp => simp [hold, htimed timestamp hget]
      · simp [hold]
    · have hx' : ¬ x = hash := fun heq => hx heq.symm
      simp [hx, hx']
  · rw [mayHaveChanged_snoc, halters, hresult, ← h.dirty, hinit]
    cases hi : s.m_initialized with
    | true => simpa using BlockClockHistory.dirty_record h.running hi
    | false =>
      have hsame : (s.record hash (time hash) connected).1.m_blocks = s.m_blocks := by
        by_cases hold : r ≤ time hash
        · rw [BlockClockHistory.record_pending h.running hi (by omega)]
        · rw [BlockClockHistory.record_old (by omega)]
      simp [hsame]

theorem Reconciled.install (h : Reconciled time blocks r s log)
    (ht : Timed time (blocks[·]?)) (hi : s.m_initialized = false) :
    Reconciled time blocks r (s.initializeWith blocks).1
      (log ++ [perform time r blocks s .initializeWith]) := by
  have hdel : delivered (log ++ [perform time r blocks s .initializeWith]) = delivered log := by
    rw [delivered_snoc]
    simp [perform, Op.event]
  have halters : (perform time r blocks s .initializeWith).Alters := .inr ⟨rfl, hi⟩
  obtain ⟨-, hpending⟩ := h.pending hi
  have hafter : (s.initializeWith blocks).1 =
      { s with
        m_blocks := (BlockClockHistory.reconcile s.m_pending blocks).filter fun _ timestamp =>
          s.m_retention_start ≤ timestamp
        m_pending := ∅
        m_initialized := true
        m_dirty := true } := by
    simp [BlockClockHistory.initializeWith, h.running, hi]
  rw [hafter]
  refine ⟨h.running, h.retention, ?_, fun hfalse => absurd hfalse (by simp), ?_, ?_⟩
  · rw [initialized_snoc]
    simp [perform]
  · intro _ x
    rw [hdel]
    dsimp only
    rw [Std.ExtTreeMap.getElem?_filter', BlockClockHistory.getElem?_reconcile, hpending,
      h.retention]
    have htimed := ht.apply (delivered log) x
    rw [apply_eq_last] at htimed ⊢
    by_cases hold : r ≤ time x
    · rw [if_pos hold, if_pos hold]
      cases hget : (last ((delivered log).map (·.write time)) x).getD blocks[x]? with
      | none => rfl
      | some timestamp => simp [htimed timestamp hget, hold]
    · rw [if_neg hold, if_neg hold, Option.getD_none]
      refine Option.filter_eq_none_iff.mpr fun timestamp hget hle => ?_
      rw [ht x timestamp hget] at hle
      exact hold (of_decide_eq_true hle)
  · rw [mayHaveChanged_snoc]
    simp [halters]

theorem Reconciled.step (ht : Timed time (blocks[·]?)) {es : List Entry} {s' : BlockClockHistory}
    (h : Reconciled time blocks r s log) (hstep : HistoryStep time r blocks s es s') :
    Reconciled time blocks r s' (log ++ es) := by
  obtain ⟨op, rfl, rfl⟩ := hstep
  cases op with
  | blockConnected historical hash =>
    cases historical with
    | true => exact h.quiet (c := s.m_changed) (d := s.m_dirty) rfl nofun rfl (by simp [Op.result])
    | false => exact h.record true ht rfl rfl rfl
  | blockDisconnected hash => exact h.record false ht rfl rfl rfl
  | initializeWith =>
    cases hi : s.m_initialized with
    | false => exact h.install ht hi
    | true =>
      have hsame : (s.initializeWith blocks).1 = s := by
        simp [BlockClockHistory.initializeWith, hi]
      exact h.quiet (c := s.m_changed) (d := s.m_dirty) rfl (fun _ => hi) hsame (by simp [Op.result])
  | takeSnapshot =>
    have htake := BlockClockHistory.takeSnapshot_of_running h.running
    by_cases hd : (s.m_initialized && s.m_dirty) = true
    · rw [if_pos hd] at htake
      refine h.quiet (c := s.m_changed) (d := false) rfl nofun ?_ ?_
      · simp [Op.after, htake]
      · simp [Op.result, htake]
    · rw [if_neg hd] at htake
      refine h.quiet (c := s.m_changed) (d := s.m_dirty) rfl nofun ?_ ?_
      · simp [Op.after, htake]
      · simp [Op.result, htake]
  | setChangedCallback callback =>
    refine h.quiet (c := callback) (d := s.m_dirty) rfl nofun ?_ (by simp [Op.result])
    simp [Op.after, BlockClockHistory.setChangedCallback, h.running]
  | setRetentionStart =>
    have hsame : s.setRetentionStart r = s := by
      simp [BlockClockHistory.setRetentionStart, h.retention]
    exact h.quiet (c := s.m_changed) (d := s.m_dirty) rfl nofun hsame (by simp [Op.result])

theorem run_reconciled (ht : Timed time (blocks[·]?))
    (h : Run (HistoryStep time r blocks) (({} : BlockClockHistory).setRetentionStart r) s log) :
    Reconciled time blocks r s log :=
  h.invariant (start_reconciled time blocks r) fun _ _ _ _ hs hstep => hs.step ht hstep

end Step

/-! ## Whole deliveries -/

section Delivery

variable {time : Hash → Int} {r : Int} {chain snapshot final : List Hash}
  {events : List ChainEvent} {start k : Nat} {api : ChainApi} {blocks : Blocks}

/-- Installed on the snapshot, the delivered events lead to the final chain: those that the snapshot
already contains are written once more, and then the later ones. -/
theorem apply_delivered (hn : chain.Nodup) (hfinal : applyEvents chain events = some final)
    (hsnap : applyEvents chain (events.take k) = some snapshot) (hstart : start ≤ k) :
    apply (chainMap time snapshot) ((events.drop start).map (·.write time)) =
      chainMap time final := by
  obtain ⟨-, hmap⟩ := applyEvents_spec time hn hfinal
  obtain ⟨-, hsnapmap⟩ := applyEvents_spec time hn hsnap
  obtain ⟨d, rfl⟩ := Nat.exists_eq_add_of_le hstart
  obtain ⟨pre, mid, post, hall, htake, hdrop⟩ : ∃ pre mid post, events = pre ++ mid ++ post ∧
      events.take (start + d) = pre ++ mid ∧ events.drop start = mid ++ post := by
    refine ⟨events.take start, (events.drop start).take d, events.drop (start + d), ?_, ?_, ?_⟩
    · rw [← List.take_add, List.take_append_drop]
    · rw [List.take_add]
    · rw [← List.drop_drop, List.take_append_drop]
  rw [hsnapmap, htake, hdrop, hmap, hall]
  simp only [List.map_append, apply_replay]

theorem timed_snapshot {history : BlockClockHistory} (hapi : api.Describes time snapshot)
    (hn : snapshot.Nodup) (hload : loadSnapshot api history = some blocks) :
    Timed time (blocks[·]?) := by
  intro hash timestamp hget
  simp only [loadSnapshot_spec hapi hn hload, chainMap] at hget
  split at hget
  · split at hget
    · exact (Option.some.inj hget).symm
    · cases hget
  · cases hget

theorem toList_perm (hn : final.Nodup) (hget : ∀ x, blocks[x]? =
    if r ≤ time x then chainMap time final x else none) :
    blocks.toList.Perm ((final.filter (r ≤ time ·)).map fun hash => (hash, time hash)) := by
  have hnodup : blocks.toList.Nodup :=
    Std.ExtTreeMap.distinct_keys_toList.imp fun hne heq => hne (by rw [heq]; simp)
  have hnodup' : ((final.filter (r ≤ time ·)).map fun hash => (hash, time hash)).Nodup := by
    refine List.Nodup.map (fun a b hab => ?_) (hn.filter _)
    exact (Prod.ext_iff.mp hab).1
  rw [List.perm_ext_iff_of_nodup hnodup hnodup']
  rintro ⟨hash, timestamp⟩
  rw [Std.ExtTreeMap.mem_toList_iff_getElem?_eq_some, hget]
  by_cases hold : r ≤ time hash
  · rw [if_pos hold]
    by_cases hmem : hash ∈ final
    · simp [chainMap, hmem, hold, eq_comm]
    · simp [chainMap, hmem]
  · rw [if_neg hold]
    simp [hold]

variable {s : BlockClockHistory} {log : List Entry}

/-- However a suffix of the events that starts before the snapshot is delivered around it, the set
ends as the recent blocks of the active chain. A snapshot of the set is handed out just when some call
altered it after the last one was. -/
theorem set_is_active_chain (hn : chain.Nodup) (hfinal : applyEvents chain events = some final)
    (hsnap : applyEvents chain (events.take k) = some snapshot) (hstart : start ≤ k)
    (hapi : api.Describes time snapshot)
    (hload : loadSnapshot api (({} : BlockClockHistory).setRetentionStart r) = some blocks)
    (hrun : Run (HistoryStep time r blocks) (({} : BlockClockHistory).setRetentionStart r) s log) :
    (Initialized log → delivered log = events.drop start →
      s.m_blocks.toList.Perm ((final.filter (r ≤ time ·)).map fun hash => (hash, time hash))) ∧
    ∀ timestamps, s.takeSnapshot.1 = some timestamps ↔
      MayHaveChanged log ∧ timestamps = s.m_blocks.toList.map (·.2) := by
  obtain ⟨hnsnap, -⟩ := applyEvents_spec time hn hsnap
  obtain ⟨hnfinal, -⟩ := applyEvents_spec time hn hfinal
  have h := run_reconciled (timed_snapshot hapi hnsnap hload) hrun
  constructor
  · intro hinit hall
    refine toList_perm hnfinal fun x => ?_
    rw [h.blocks (h.initialized.mpr hinit), hall, ← apply_delivered hn hfinal hsnap hstart]
    by_cases hold : r ≤ time x
    · rw [if_pos hold, if_pos hold, apply_eq_last, apply_eq_last,
        loadSnapshot_spec hapi hnsnap hload, (start_reconciled time blocks r).retention,
        if_pos hold]
    · rw [if_neg hold, if_neg hold]
  · intro timestamps
    rw [BlockClockHistory.takeSnapshot_of_running h.running, ← h.dirty]
    split
    · rename_i hd
      simp [hd, eq_comm]
    · rename_i hd
      simp [hd]

/-- The events of `set_is_active_chain_reorg`. -/
def reorg : List Op :=
  [.blockConnected false 2, .blockDisconnected 2, .initializeWith, .blockConnected false 3]

/-- Block 2 is in the snapshot and delivered before it is installed, and then block 3 takes its place.
Block 0 is too old. -/
theorem set_is_active_chain_reorg :
    let s := ({} : BlockClockHistory).setRetentionStart 5
    let blocks := (loadSnapshot (.ofChain (10 * ·) [2, 1, 0]) s).getD ∅
    (performAll (10 * ·) 5 blocks s reorg).1.m_blocks.toList.Perm [(3, 30), (1, 10)] := by
  intro s blocks
  have hn : [1, 0].Nodup := by decide
  have hfinal : applyEvents [1, 0] [.connect 2, .disconnect 2, .connect 3] = some [3, 1, 0] := rfl
  have hsnap : applyEvents [1, 0] (List.take 1 [.connect 2, .disconnect 2, .connect 3]) =
      some [2, 1, 0] := rfl
  have hload : loadSnapshot (.ofChain (10 * ·) [2, 1, 0]) s = some blocks :=
    (Option.some_get (x := loadSnapshot (.ofChain (10 * ·) [2, 1, 0]) s) rfl).symm
  have hinit : Initialized (performAll (10 * ·) 5 blocks s reorg).2 :=
    show .initializeWith ∈ reorg by decide
  exact (set_is_active_chain hn hfinal hsnap (Nat.zero_le 1) (describes_ofChain _ _) hload
    (run_performAll _ _ _ _ _)).1 hinit rfl

end Delivery

end GuiQml.BlockClock
