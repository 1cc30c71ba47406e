import GuiQml.Console.Model
import GuiQml.Lib.Reach

/-!
# Runs of the console

One command is under way at a time, the history is the end of what was accepted, and walking in it leads back to
what was being typed.
-/

namespace GuiQml.Console

variable {calls : Calls} {m : RpcConsoleModel} {c : System} {p : Page}

namespace RpcConsoleModel

/-- Only rows and colours differ. -/
structure SameControl (m m' : RpcConsoleModel) : Prop where
  executing : m'.m_executing = m.m_executing
  stopping : m'.m_stopping = m.m_stopping
  history : m'.m_history = m.m_history
  idx : m'.m_history_idx = m.m_history_idx
  pending : m'.m_pending_text = m.m_pending_text

theorem same_appendFormattedRow (m : RpcConsoleModel) (time : QString) (category : MessageCategory)
    (rawText : QString) : m.SameControl (m.appendFormattedRow calls time category rawText) := ⟨rfl, rfl, rfl, rfl, rfl⟩

theorem same_showWallet (m : RpcConsoleModel) (time wallet_name : QString) :
    m.SameControl (m.showWallet calls time wallet_name) := by
  unfold showWallet
  split <;> exact ⟨rfl, rfl, rfl, rfl, rfl⟩

/-- What an accepted command leaves. -/
structure Accepted (m m' : RpcConsoleModel) (filteredCmd : QString) : Prop where
  executing : m'.m_executing = true
  stopping : m'.m_stopping = m.m_stopping
  history : m'.m_history = Recent.remember HISTORY_MAX m.m_history filteredCmd
  idx : m'.m_history_idx = -1
  pending : m'.m_pending_text = []

theorem accepted_accept (m : RpcConsoleModel) (time filteredCmd wallet_name : QString) :
    m.Accepted (m.accept calls time filteredCmd wallet_name) filteredCmd := by
  have h := @same_showWallet calls
    { m with
      m_history := Recent.remember HISTORY_MAX m.m_history filteredCmd
      m_history_idx := -1
      m_pending_text := [] } time wallet_name
  exact ⟨rfl, h.stopping, h.history, h.idx, h.pending⟩

end RpcConsoleModel

namespace System

/-- The command as the history holds it. -/
def filtered (calls : Calls) (execution : Execution) : QString :=
  match calls.RPCParseCommandLine (execution.command ++ ['\n']) with
  | .accepted filtered => calls.trimmed filtered
  | .unbalanced | .runtimeError _ => []

theorem submitCommand_cases (calls : Calls) (c : System) (time command wallet_name : QString) :
    (∃ model stops, c.model.SameControl model ∧
      (c.submitCommand calls time command wallet_name).1 = { c with model, stops }) ∨
    ∃ model execution, c.model.m_stopping = false ∧ c.model.m_executing = false ∧
      c.model.Accepted model (filtered calls execution) ∧
      c.submitCommand calls time command wallet_name =
        ({ c with model, posted := c.posted ++ [execution], submitted := c.submitted ++ [execution] }, true) := by
  have hsame : ∃ model stops, c.model.SameControl model ∧ c = { c with model, stops } :=
    ⟨c.model, c.stops, ⟨rfl, rfl, rfl, rfl, rfl⟩, rfl⟩
  unfold submitCommand
  split
  · exact .inl hsame
  rename_i hstopping
  dsimp only
  split
  · exact .inl hsame
  split
  · exact .inl ⟨_, c.stops, RpcConsoleModel.same_appendFormattedRow c.model _ _ _, rfl⟩
  · exact .inl ⟨_, c.stops, RpcConsoleModel.same_appendFormattedRow c.model _ _ _, rfl⟩
  rename_i text hparse
  split
  · exact .inl ⟨c.model, c.stops + 1, ⟨rfl, rfl, rfl, rfl, rfl⟩, rfl⟩
  split
  · exact .inl hsame
  rename_i hexecuting
  refine .inr ⟨_, ⟨calls.trimmed command, wallet_name⟩, by simpa using hstopping, by simpa using hexecuting, ?_, rfl⟩
  have hfiltered : filtered calls ⟨calls.trimmed command, wallet_name⟩ = calls.trimmed text := by
    unfold filtered
    rw [hparse]
  rw [hfiltered]
  exact RpcConsoleModel.accepted_accept c.model _ _ _

/-! ## One command at a time -/

/-- The commands that were taken and whose result the main thread has not seen. -/
def underWay (c : System) : Nat := c.posted.length + c.running.toList.length + c.results.length

structure Serial (c : System) : Prop where
  order : c.submitted = c.started ++ c.posted
  counted : c.submitted.length = c.received.length + c.underWay
  one : c.underWay ≤ 1
  busy : c.model.m_stopping = false → (c.model.m_executing = true ↔ c.underWay = 1)

namespace Serial

theorem frame (h : c.Serial) {model : RpcConsoleModel} {stops : Nat} (hstopping : model.m_stopping = c.model.m_stopping)
    (hexecuting : model.m_executing = c.model.m_executing) : ({ c with model, stops } : System).Serial :=
  ⟨h.order, h.counted, h.one, fun hnot => by
    rw [show ({ c with model, stops } : System).model = model from rfl] at hnot ⊢
    rw [hexecuting]
    exact h.busy (hstopping ▸ hnot)⟩

theorem submitCommand (h : c.Serial) (time command wallet_name : QString) :
    (c.submitCommand calls time command wallet_name).1.Serial := by
  rcases submitCommand_cases calls c time command wallet_name with
    ⟨model, stops, hsame, heq⟩ | ⟨model, execution, hstopping, hexecuting, haccepted, heq⟩
  · rw [heq]
    exact h.frame hsame.stopping hsame.executing
  · rw [heq]
    have hnone : c.underWay ≠ 1 := fun hone => by simp [(h.busy hstopping).2 hone] at hexecuting
    have hone := h.one
    have hcounted := h.counted
    unfold underWay at *
    constructor
    · show c.submitted ++ [execution] = c.started ++ (c.posted ++ [execution])
      rw [h.order, List.append_assoc]
    · simp only [underWay, List.length_append, List.length_singleton]
      omega
    · simp only [underWay, List.length_append, List.length_singleton]
      omega
    · intro _
      simp only [underWay, List.length_append, List.length_singleton, haccepted.executing, true_iff]
      omega

theorem start (h : c.Serial) : c.start.Serial := by
  unfold System.start
  split
  · rename_i execution posted hrunning hposted
    obtain ⟨horder, hcounted, hone, hbusy⟩ := h
    simp only [underWay, hrunning, hposted, Option.toList_none, List.length_nil, List.length_cons]
      at hcounted hone hbusy
    constructor
    · rw [horder, hposted, List.append_assoc]
      rfl
    · simp only [underWay, Option.toList_some, List.length_singleton]
      omega
    · simp only [underWay, Option.toList_some, List.length_singleton]
      omega
    · intro hstopping
      rw [hbusy hstopping]
      simp only [underWay, Option.toList_some, List.length_singleton]
  · exact h

theorem finish (h : c.Serial) (result : Result) : (c.finish result).Serial := by
  unfold System.finish
  split
  · exact h
  · rename_i execution hrunning
    obtain ⟨horder, hcounted, hone, hbusy⟩ := h
    simp only [underWay, hrunning, Option.toList_some, List.length_singleton] at hcounted hone hbusy
    refine ⟨horder, ?_, ?_, fun hstopping => ?_⟩
    · simp only [underWay, Option.toList_none, List.length_nil, List.length_append, List.length_singleton]
      omega
    · simp only [underWay, Option.toList_none, List.length_nil, List.length_append, List.length_singleton]
      omega
    · rw [hbusy hstopping]
      simp only [underWay, Option.toList_none, List.length_nil, List.length_append, List.length_singleton]
      omega

theorem deliver (h : c.Serial) : (c.deliver calls).Serial := by
  unfold System.deliver
  split
  · exact h
  · rename_i result results hresults
    obtain ⟨horder, hcounted, hone, hbusy⟩ := h
    simp only [underWay, hresults, List.length_cons] at hcounted hone hbusy
    refine ⟨horder, ?_, ?_, fun hstopping => ?_⟩
    · simp only [underWay, List.length_append, List.length_singleton]
      omega
    · simp only [underWay]
      omega
    · -- The only result that was under way.
      have hnot : c.model.m_stopping = false := by
        unfold RpcConsoleModel.onResultReady at hstopping
        split at hstopping <;> exact hstopping
      simp only [underWay, RpcConsoleModel.onResultReady, hnot, Bool.false_eq_true, if_false, false_iff]
      omega

theorem background (h : c.Serial) (event : Background) : (c.background calls event).Serial := by
  cases event with
  | clear => exact h.frame rfl rfl
  | setKeyColor color => exact h.frame rfl rfl
  | beginShutdown => exact ⟨h.order, h.counted, h.one, fun hnot => by cases hnot⟩
  | start => exact h.start
  | finish result => exact h.finish result
  | deliver => exact h.deliver

end Serial

end System

/-! ## The history -/

namespace RpcConsoleModel

theorem browseHistory_kept (m : RpcConsoleModel) (direction : Int) (currentText : QString) :
    (m.browseHistory direction currentText).1.m_history = m.m_history ∧
    (m.browseHistory direction currentText).1.m_stopping = m.m_stopping ∧
    (m.browseHistory direction currentText).1.m_executing = m.m_executing := by
  unfold browseHistory
  split
  · exact ⟨rfl, rfl, rfl⟩
  · dsimp only
    split <;> split <;> exact ⟨rfl, rfl, rfl⟩

end RpcConsoleModel

namespace System

/-- The history is the end of what was accepted. -/
def Remembers (calls : Calls) (c : System) : Prop :=
  c.model.m_history = ((c.submitted.map (filtered calls)).destutter (· ≠ ·)).rtake HISTORY_MAX

theorem remembers_submitCommand (h : c.Remembers calls) (time command wallet_name : QString) :
    (c.submitCommand calls time command wallet_name).1.Remembers calls := by
  rcases submitCommand_cases calls c time command wallet_name with
    ⟨model, stops, hsame, heq⟩ | ⟨model, execution, -, -, haccepted, heq⟩
  · rw [heq]
    exact hsame.history.trans h
  · rw [heq]
    show model.m_history = (((c.submitted ++ [execution]).map (filtered calls)).destutter (· ≠ ·)).rtake HISTORY_MAX
    have hroom : 0 < HISTORY_MAX := by decide
    rw [haccepted.history, h, ← Recent.foldl_remember hroom, ← Recent.foldl_remember hroom, List.map_append,
      List.foldl_append]
    rfl

/-- What happens without a text from the input field leaves the history and the walk in it. -/
structure SameHistory (c c' : System) : Prop where
  history : c'.model.m_history = c.model.m_history
  idx : c'.model.m_history_idx = c.model.m_history_idx
  pending : c'.model.m_pending_text = c.model.m_pending_text
  submitted : c'.submitted = c.submitted

theorem sameHistory_start (c : System) : c.SameHistory c.start := by
  unfold start
  split <;> exact ⟨rfl, rfl, rfl, rfl⟩

theorem sameHistory_finish (c : System) (result : Result) : c.SameHistory (c.finish result) := by
  unfold finish
  split <;> exact ⟨rfl, rfl, rfl, rfl⟩

theorem sameHistory_deliver (c : System) : c.SameHistory (c.deliver calls) := by
  unfold deliver
  split
  · exact ⟨rfl, rfl, rfl, rfl⟩
  · unfold RpcConsoleModel.onResultReady
    constructor <;> dsimp only <;> split <;> rfl

theorem sameHistory_background (c : System) (event : Background) : c.SameHistory (c.background calls event) := by
  cases event with
  | clear => exact ⟨rfl, rfl, rfl, rfl⟩
  | setKeyColor color => exact ⟨rfl, rfl, rfl, rfl⟩
  | beginShutdown => exact ⟨rfl, rfl, rfl, rfl⟩
  | start => exact sameHistory_start c
  | finish result => exact sameHistory_finish c result
  | deliver => exact sameHistory_deliver c

/-- In every run one command at most is under way, the commands reach the worker in the order in which they were
accepted, no command is accepted while one is under way, and where none is, each has had its one result. The
history is the last fifty of what was accepted, as it may be shown and without repeats in a row. -/
theorem serial_run {key_color : QColor}
    (h : Reach.Reaches (step calls) (fun _ _ => True) { model := { m_key_color := key_color } } c) :
    c.Serial ∧ c.Remembers calls := by
  refine h.invariant (I := fun c => c.Serial ∧ c.Remembers calls)
    ⟨⟨rfl, rfl, Nat.zero_le 1, fun _ => by simp [underWay]⟩, ?_⟩ ?_
  · simp [Remembers]
  · rintro c e ⟨hserial, hremembers⟩ -
    cases e with
    | submit time command wallet_name =>
      exact ⟨hserial.submitCommand time command wallet_name,
        remembers_submitCommand hremembers time command wallet_name⟩
    | browse direction currentText =>
      obtain ⟨hhistory, hstopping, hexecuting⟩ := c.model.browseHistory_kept direction currentText
      exact ⟨hserial.frame hstopping hexecuting, hhistory.trans hremembers⟩
    | resetHistoryNavigation => exact ⟨hserial.frame rfl rfl, hremembers⟩
    | background event =>
      have hsame := @sameHistory_background calls c event
      refine ⟨hserial.background event, ?_⟩
      show (c.background calls event).model.m_history =
        (((c.background calls event).submitted.map (filtered calls)).destutter (· ≠ ·)).rtake HISTORY_MAX
      rw [hsame.history, hsame.submitted]
      exact hremembers

/-! ### One command -/

/-- A console whose commands are all filtered to themselves and whose replies are no objects. -/
def plainCalls : Calls where
  isSpace c := c = ' ' || c = '\n'
  RPCParseCommandLine text := .accepted text
  read _ := none

def plainColor : QColor := ⟨Vector.replicate 6 8⟩

def plainConsole : System := { model := { m_key_color := plainColor } }

theorem serial_run_one_command :
    let events : List Event := [.submit [] "uptime".toList [], .background .start]
    let c := events.foldl (step plainCalls) plainConsole
    c.Serial ∧ c.Remembers plainCalls :=
  serial_run (Reach.Reaches.events (fun _ _ => trivial) .refl _)

end System

/-! ## Walking in the history -/

/-- What the field shows `i` back from the newest entry, or at `-1` from what was typed. -/
def field (history : List QString) (typed : QString) (i : Int) : QString :=
  if i < 0 then typed else history.getD (history.length - 1 - i.toNat) []

/-- A walk in the history ends at the oldest entry, and at what was typed. -/
def walk (history : List QString) (i direction : Int) : Int := max (-1) (min (i + direction) (history.length - 1))

namespace RpcConsoleModel

/-- Where the walk stands, and that what was typed is kept while it is somewhere else. -/
structure Stands (m : RpcConsoleModel) (typed text : QString) : Prop where
  low : -1 ≤ m.m_history_idx
  high : m.m_history_idx < m.m_history.length
  kept : m.m_history_idx ≠ -1 → m.m_pending_text = typed
  shown : text = field m.m_history typed m.m_history_idx

theorem browseHistory_eq (m : RpcConsoleModel) (hne : m.m_history ≠ []) (direction : Int) (currentText : QString) :
    let pending := if m.m_history_idx = -1 then currentText else m.m_pending_text
    let idx := walk m.m_history m.m_history_idx direction
    m.browseHistory direction currentText =
      ({ m with m_pending_text := pending, m_history_idx := idx }, field m.m_history pending idx) := by
  intro pending idx
  have hlength : 0 < m.m_history.length := List.length_pos_iff.2 hne
  have hkeep : (if m.m_history_idx = -1 then { m with m_pending_text := currentText } else m) =
      { m with m_pending_text := pending } := by
    simp only [pending]
    split <;> rfl
  unfold browseHistory
  rw [if_neg (by simpa using hne), hkeep]
  by_cases hnew : m.m_history_idx + direction < 0
  · have hidx : idx = -1 := by
      simp only [idx, walk]
      omega
    simp only [hnew, if_true, hidx]
    rfl
  · have hidx : idx =
        if (m.m_history.length : Int) ≤ m.m_history_idx + direction then (m.m_history.length : Int) - 1
        else m.m_history_idx + direction := by
      simp only [idx, walk]
      split <;> omega
    have hlow : ¬idx < 0 := by
      rw [hidx]
      split <;> omega
    simp only [hnew, if_false, ← hidx, field, hlow]

theorem Stands.browse {typed text : QString} (h : m.Stands typed text) (direction : Int) :
    (m.browseHistory direction text).1.m_history_idx = walk m.m_history m.m_history_idx direction ∧
    (m.browseHistory direction text).1.Stands typed (m.browseHistory direction text).2 := by
  obtain ⟨hlow, hhigh, hkept, hshown⟩ := h
  by_cases hne : m.m_history = []
  · have hidx : m.m_history_idx = -1 := by
      rw [hne] at hhigh
      simp only [List.length_nil] at hhigh
      omega
    have heq : m.browseHistory direction text = (m, text) := by
      rw [browseHistory, hne]
      rfl
    rw [heq]
    refine ⟨?_, hlow, hhigh, hkept, hshown⟩
    rw [hidx, hne, walk]
    simp only [List.length_nil]
    omega
  · have hlength : 0 < m.m_history.length := List.length_pos_iff.2 hne
    have hpending : (if m.m_history_idx = -1 then text else m.m_pending_text) = typed := by
      split
      · rename_i hidx
        rw [hshown, hidx]
        rfl
      · rename_i hidx
        exact hkept hidx
    rw [browseHistory_eq m hne direction text, hpending]
    refine ⟨rfl, ?_, ?_, fun _ => rfl, rfl⟩
    · show -1 ≤ walk m.m_history m.m_history_idx direction
      unfold walk
      omega
    · show walk m.m_history m.m_history_idx direction < m.m_history.length
      unfold walk
      omega

end RpcConsoleModel

namespace Page

/-- The field shows what it should at the place of the walk. -/
def Sound (p : Page) : Prop := p.system.model.Stands p.typed p.text

theorem Sound.setText (h : p.Sound) (text : QString) : (p.setText text).Sound := by
  unfold Page.setText
  split
  · exact h
  · exact ⟨Int.le_refl _, by show (-1 : Int) < _; omega, fun hne => absurd rfl hne, rfl⟩

theorem Sound.browse (h : p.Sound) (direction : Int) : (p.browse direction).Sound :=
  (RpcConsoleModel.Stands.browse h direction).2

theorem Sound.run (h : p.Sound) (time walletName : QString) : (p.run calls time walletName).Sound := by
  unfold Page.run
  split
  · exact h
  rename_i htext
  dsimp only
  rcases System.submitCommand_cases calls p.system time (calls.trimmed p.text) walletName with
    ⟨model, stops, hsame, heq⟩ | ⟨model, execution, -, -, haccepted, heq⟩
  · have hkept : ({ p with system := { p.system with model, stops } } : Page).Sound := by
      obtain ⟨hlow, hhigh, hpending, hshown⟩ := h
      refine ⟨?_, ?_, ?_, ?_⟩ <;> dsimp only
      · rw [hsame.idx]; exact hlow
      · rw [hsame.idx, hsame.history]; exact hhigh
      · rw [hsame.idx, hsame.pending]; exact hpending
      · rw [hsame.idx, hsame.history]; exact hshown
    rw [heq]
    split
    · exact hkept.setText []
    · exact hkept
  · rw [heq]
    -- The field is emptied, and it was not empty.
    have hne : ¬([] : QString) = p.text := by
      intro hnil
      rw [← hnil] at htext
      exact htext rfl
    simp only [if_true]
    rw [Page.setText, if_neg hne]
    exact ⟨Int.le_refl _, by show (-1 : Int) < _; omega, fun hne => absurd rfl hne, rfl⟩

theorem Sound.background (h : p.Sound) (event : Background) :
    ({ p with system := p.system.background calls event } : Page).Sound := by
  have hsame := @System.sameHistory_background calls p.system event
  obtain ⟨hlow, hhigh, hpending, hshown⟩ := h
  refine ⟨?_, ?_, ?_, ?_⟩ <;> dsimp only
  · rw [hsame.idx]; exact hlow
  · rw [hsame.idx, hsame.history]; exact hhigh
  · rw [hsame.idx, hsame.pending]; exact hpending
  · rw [hsame.idx, hsame.history]; exact hshown

theorem Sound.step (h : p.Sound) (e : PageEvent) : (p.step calls e).Sound := by
  cases e with
  | type text => exact h.setText text
  | up => exact h.browse 1
  | down => exact h.browse (-1)
  | run time walletName => exact h.run time walletName
  | background event => exact h.background event

/-- Pressing Down again and again. -/
def downs (n : Nat) (p : Page) : Page := (fun p : Page => p.browse (-1))^[n] p

theorem downs_stands (h : p.Sound) (n : Nat) :
    (p.downs n).Sound ∧ (p.downs n).typed = p.typed ∧
    (p.downs n).system.model.m_history = p.system.model.m_history ∧
    (p.downs n).system.model.m_history_idx = max (-1) (p.system.model.m_history_idx - n) := by
  induction n with
  | zero =>
    have hlow := h.low
    refine ⟨h, rfl, rfl, ?_⟩
    show p.system.model.m_history_idx = _
    omega
  | succ n ih =>
    obtain ⟨hsound, htyped, hhistory, hidx⟩ := ih
    have hhigh := h.high
    obtain ⟨hwalk, hnext⟩ := RpcConsoleModel.Stands.browse hsound (-1)
    have hsucc : p.downs (n + 1) = (p.downs n).browse (-1) := Function.iterate_succ_apply' _ _ _
    rw [hsucc]
    refine ⟨hnext, htyped, (RpcConsoleModel.browseHistory_kept _ _ _).1.trans hhistory, hwalk.trans ?_⟩
    rw [walk, hhistory, hidx]
    omega

/-- In every run the field shows the entry at which the walk in the history stands, and Down leads back to what
was typed from wherever it stands. -/
theorem walks_back {key_color : QColor}
    (h : Reach.Reaches (step calls) (fun _ _ => True) ⟨{ model := { m_key_color := key_color } }, [], []⟩ p) :
    -1 ≤ p.system.model.m_history_idx ∧ p.system.model.m_history_idx < p.system.model.m_history.length ∧
    ∀ n : Nat, (p.downs n).text =
      field p.system.model.m_history p.typed (max (-1) (p.system.model.m_history_idx - n)) := by
  have hsound : p.Sound := by
    refine h.invariant (I := Sound) ⟨Int.le_refl _, ?_, fun hne => absurd rfl hne, rfl⟩
      fun _ e hsound _ => hsound.step e
    show (-1 : Int) < 0
    decide
  refine ⟨hsound.low, hsound.high, fun n => ?_⟩
  obtain ⟨hdown, htyped, hhistory, hidx⟩ := downs_stands hsound n
  rw [hdown.shown, htyped, hhistory, hidx]

theorem walks_back_one_command :
    let events : List PageEvent := [.type "uptime".toList, .run [] [], .type "up".toList, .up]
    let p := events.foldl (step System.plainCalls) ⟨System.plainConsole, [], []⟩
    ∀ n : Nat, (p.downs n).text =
      field p.system.model.m_history p.typed (max (-1) (p.system.model.m_history_idx - n)) :=
  (walks_back (Reach.Reaches.events (fun _ _ => trivial) .refl _)).2.2

end Page

end GuiQml.Console
