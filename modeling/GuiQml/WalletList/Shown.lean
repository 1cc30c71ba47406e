import GuiQml.Lib.Run
import GuiQml.WalletList.Rows

/-!
# What the wallet list shows

Every run of listings, reports and balances, against the reports themselves: which wallets have a row, and
which one is shown as loading or as in error. The model has no other mark than the empty name for no wallet
at all, so the default wallet is taken for one that is named by a report where none is.
-/

namespace GuiQml.WalletList

open WalletListModel (listing Shape)

/-! ## Reports -/

def Reports (name : QString) (state : LoadState) : Event → Prop
  | .setWalletLoadState other reported _ => other = name ∧ reported = state
  | _ => False

def Transient (state : LoadState) : Prop := state = .Loading ∨ state = .LoadError

/-- A wallet is loading or in error, whichever it is, or the wallet is open or closed. -/
def Supersedes (name : QString) : Event → Prop
  | .setWalletLoadState other state _ => Transient state ∨ other = name
  | _ => False

/-- The last such report of the run is that one, and no later one says that the wallet is open or closed. -/
def Stands (name : QString) (state : LoadState) (events : List Event) : Prop :=
  Runs.Since (Reports name state) (Supersedes name) events

/-- The same without the reports on the default wallet. -/
def SupersedesNamed (name : QString) : Event → Prop
  | .setWalletLoadState other state _ => other ≠ [] ∧ (Transient state ∨ other = name)
  | _ => False

def StandsNamed (name : QString) (state : LoadState) (events : List Event) : Prop :=
  Runs.Since (Reports name state) (SupersedesNamed name) events

def IsOpen (name : QString) (events : List Event) : Prop :=
  name ≠ [] ∧ Runs.Since (Reports name .Open) (Reports name .Closed) events

def lastListing (events : List Event) : Option (List QString) := Runs.lastSome listing events

def InList (name : QString) (events : List Event) : Prop :=
  ∃ names, lastListing events = some names ∧ (name ∈ names ∨ IsOpen name events)

/-- No directory lists a wallet twice. -/
def Distinct (events : List Event) : Prop := ∀ e ∈ events, ∀ names, listing e = some names → names.Nodup

/-! ## What is to hold -/

section Statements

variable (foldCase : QString → List Nat)

/-- The rows after a run. -/
structure Holds (events : List Event) : Prop where
  sorted : (WalletListModel.run foldCase events).m_items.Pairwise fun a b =>
    itemLess foldCase (WalletListModel.run foldCase events).m_open_wallet_names a b = true
  distinct : ((WalletListModel.run foldCase events).m_items.map Item.name).Nodup
  opened : ∀ name, name ∈ (WalletListModel.run foldCase events).m_open_wallet_names ↔ IsOpen name events
  rows : ∀ names, lastListing events = some names → ∀ name,
    name ∈ (WalletListModel.run foldCase events).m_items.map Item.name ↔ name ∈ names ∨ IsOpen name events
  shown : ∀ item ∈ (WalletListModel.run foldCase events).m_items, ∀ state, Transient state →
    ((WalletListModel.run foldCase events).loadState item.name = state ↔ Stands item.name state events)
  kept : ∀ before name balance keySchemeKind after,
    events = before ++ .setWalletInfo name balance keySchemeKind :: after → name ≠ [] →
    (∀ mid, mid <+: after → name ∈ (WalletListModel.run foldCase
      (before ++ .setWalletInfo name balance keySchemeKind :: mid)).m_items.map Item.name) →
    (∀ balance' keySchemeKind', .setWalletInfo name balance' keySchemeKind' ∉ after) →
    ∀ item ∈ (WalletListModel.run foldCase events).m_items, item.name = name →
      item.balance = some balance ∧ item.keySchemeKind = keySchemeKind

end Statements

/-- No report on the default wallet has come after the one that stands for a wallet of the list. The default
wallet is not listed, or its own report stands and says what an empty name happens to mean: that it is loading
where the error of another wallet stands, and in error elsewhere. -/
structure Attributable (events : List Event) : Prop where
  named : ∀ name state, name ≠ [] → Transient state → InList name events → StandsNamed name state events →
    Stands name state events
  unnamed : ∀ names, lastListing events = some names → [] ∈ names →
    ((∃ name ≠ [], StandsNamed name .LoadError events) → Stands [] .Loading events) ∧
    ((¬∃ name ≠ [], StandsNamed name .LoadError events) → Stands [] .LoadError events)

/-! ## The reports that the model keeps -/

section Reported

variable {foldCase : QString → List Nat} {m : WalletListModel} {events : List Event} {name : QString}
  {state state' : LoadState}

structure Reported (events : List Event) (m : WalletListModel) : Prop where
  opened : ∀ name, name ∈ m.m_open_wallet_names ↔ IsOpen name events
  error : ∀ name ≠ [], m.m_load_error.1 = name ↔ StandsNamed name .LoadError events
  loading : ∀ name ≠ [], m.m_loading_wallet = name ↔ StandsNamed name .Loading events
  exclusive : m.m_load_error.1 ≠ [] → m.m_loading_wallet = []

theorem reported_empty : Reported [] {} where
  opened name := by simp [IsOpen, Runs.not_since_nil]
  error name hname := iff_of_false (Ne.symm hname) Runs.not_since_nil
  loading name hname := iff_of_false (Ne.symm hname) Runs.not_since_nil
  exclusive h := absurd rfl h

theorem since_of_silent {P Q : Event → Prop} {e : Event} (hP : ¬P e) (hQ : ¬Q e) :
    Runs.Since P Q (events ++ [e]) ↔ Runs.Since P Q events := by
  rw [Runs.since_snoc]
  simp [hP, hQ]

theorem Reports.supersedes {e : Event} (hname : name ≠ []) (h : Reports name state e) :
    SupersedesNamed name e := by
  cases e with
  | setWalletLoadState other reported error => exact ⟨h.1 ▸ hname, .inr h.1⟩
  | listWalletDir entries => exact h.elim
  | setWalletInfo other balance keySchemeKind => exact h.elim

theorem Reported.silent (h : Reported events m) {m' : WalletListModel} {e : Event}
    (hopen : m'.m_open_wallet_names = m.m_open_wallet_names) (hloading : m'.m_loading_wallet = m.m_loading_wallet)
    (herror : m'.m_load_error = m.m_load_error)
    (he : ∀ name ≠ [], ¬SupersedesNamed name e) : Reported (events ++ [e]) m' := by
  have hreports : ∀ name ≠ [], ∀ state, ¬Reports name state e := fun name hname state hreport =>
    he name hname (hreport.supersedes hname)
  constructor
  · intro name
    rw [hopen, h.opened]
    refine and_congr_right fun hname => ?_
    exact (since_of_silent (hreports name hname _) (hreports name hname _)).symm
  · intro name hname
    rw [herror, h.error name hname]
    exact (since_of_silent (hreports name hname _) (he name hname)).symm
  · intro name hname
    rw [hloading, h.loading name hname]
    exact (since_of_silent (hreports name hname _) (he name hname)).symm
  · rw [herror, hloading]
    exact h.exclusive

theorem isOpen_transient {other : QString} {error : QString} (hstate : Transient state) :
    IsOpen name (events ++ [.setWalletLoadState other state error]) ↔ IsOpen name events := by
  refine and_congr_right fun _ => since_of_silent (fun h => ?_) (fun h => ?_)
  all_goals
    rcases hstate with rfl | rfl
    · cases h.2
    · cases h.2

theorem standsNamed_transient {other error : QString} (hother : other ≠ []) (hstate : Transient state) :
    StandsNamed name state' (events ++ [.setWalletLoadState other state error]) ↔
      other = name ∧ state = state' := by
  unfold StandsNamed
  rw [Runs.since_snoc]
  simp [Reports, SupersedesNamed, hother, hstate]

theorem Reported.loading_report (h : Reported events m) {other error : QString} (hother : other ≠ []) :
    Reported (events ++ [.setWalletLoadState other .Loading error]) (m.setTransientState other none) := by
  have herror : (m.setTransientState other none).m_load_error.1 = [] := by
    simp only [WalletListModel.setTransientState]
    split
    next => rfl
    next hempty => exact not_not.mp hempty
  constructor
  · intro name
    rw [isOpen_transient (.inl rfl)]
    exact h.opened name
  · intro name hname
    rw [standsNamed_transient hother (.inl rfl), herror]
    exact iff_of_false (Ne.symm hname) fun heq => by cases heq.2
  · intro name hname
    rw [standsNamed_transient hother (.inl rfl)]
    exact ⟨fun heq => ⟨heq, rfl⟩, And.left⟩
  · exact absurd herror

theorem Reported.error_report (h : Reported events m) {other error : QString} (hother : other ≠ []) :
    Reported (events ++ [.setWalletLoadState other .LoadError error]) (m.setTransientState other (some error)) := by
  constructor
  · intro name
    rw [isOpen_transient (.inr rfl)]
    exact h.opened name
  · intro name hname
    rw [standsNamed_transient hother (.inr rfl)]
    exact ⟨fun heq => ⟨heq, rfl⟩, And.left⟩
  · intro name hname
    rw [standsNamed_transient hother (.inr rfl)]
    exact iff_of_false (Ne.symm hname) fun heq => by cases heq.2
  · exact fun _ => rfl

theorem standsNamed_settled {other error : QString} (hother : other ≠ []) (hstate : ¬Transient state)
    (hstate' : Transient state') :
    StandsNamed name state' (events ++ [.setWalletLoadState other state error]) ↔
      StandsNamed name state' events ∧ other ≠ name := by
  have hne : state ≠ state' := fun heq => hstate (heq ▸ hstate')
  unfold StandsNamed
  rw [Runs.since_snoc]
  simp [Reports, SupersedesNamed, hother, hstate, hne]

theorem cleared_eq_iff {shown other : QString} (hname : name ≠ []) :
    (if shown = other then [] else shown) = name ↔ shown = name ∧ other ≠ name := by
  split
  next hsame =>
    refine iff_of_false (Ne.symm hname) fun ⟨heq, hne⟩ => hne ?_
    rw [← hsame, heq]
  next hdiffers => exact ⟨fun heq => ⟨heq, fun hsame => hdiffers (heq.trans hsame.symm)⟩, And.left⟩

theorem Reported.open_report (h : Reported events m) {other error : QString} (hother : other ≠ []) (loaded : Bool)
    {m' : WalletListModel}
    (hopen : ∀ name, name ∈ m'.m_open_wallet_names ↔
      if loaded then name = other ∨ name ∈ m.m_open_wallet_names
      else name ∈ m.m_open_wallet_names ∧ name ≠ other)
    (hloading : m'.m_loading_wallet = if m.m_loading_wallet = other then [] else m.m_loading_wallet)
    (herror : m'.m_load_error = if m.m_load_error.1 = other then ([], []) else m.m_load_error) :
    Reported (events ++ [.setWalletLoadState other (if loaded then .Open else .Closed) error]) m' := by
  have hsettled : ¬Transient (if loaded then .Open else .Closed) := by
    cases loaded <;> simp [Transient]
  constructor
  · intro name
    have hold := h.opened name
    unfold IsOpen at hold ⊢
    rw [hopen, hold, Runs.since_snoc]
    cases loaded with
    | true =>
      by_cases hname : name = other
      · simp [hname, Reports, hother]
      · simp [hname, Reports, Ne.symm hname]
    | false => simp [Reports, and_assoc, eq_comm]
  · intro name hname
    rw [standsNamed_settled hother hsettled (.inr rfl), ← h.error name hname, herror, apply_ite Prod.fst]
    exact cleared_eq_iff hname
  · intro name hname
    rw [standsNamed_settled hother hsettled (.inl rfl), ← h.loading name hname, hloading]
    exact cleared_eq_iff hname
  · intro hne
    rw [herror] at hne
    split at hne
    next => exact absurd rfl hne
    next =>
      rw [hloading, h.exclusive hne]
      split <;> rfl

end Reported

/-! ## Every run -/

section Run

variable {foldCase : QString → List Nat} {m : WalletListModel} {events : List Event} {name : QString}
  {state state' : LoadState}

structure Sound (foldCase : QString → List Nat) (events : List Event) (m : WalletListModel) : Prop where
  shape : Shape foldCase (lastListing events) m
  reported : Reported events m

theorem Sound.step (h : Sound foldCase events m) {e : Event}
    (he : ∀ names, listing e = some names → names.Nodup) :
    Sound foldCase (events ++ [e]) (m.step foldCase e) := by
  constructor
  · have hshape := h.shape.step e he
    unfold lastListing at hshape ⊢
    rwa [Runs.lastSome_snoc]
  · cases e with
    | listWalletDir entries =>
      obtain ⟨items, -, -, hlist⟩ := WalletListModel.listWalletDir_eq foldCase h.shape.rows.keyed (he _ rfl)
      simp only [WalletListModel.step, hlist]
      exact h.reported.silent rfl rfl rfl fun _ _ hreport => hreport
    | setWalletLoadState other reported error =>
      simp only [WalletListModel.step, WalletListModel.setWalletLoadState]
      split
      next hempty =>
        refine h.reported.silent rfl rfl rfl fun _ _ hreport => hreport.1 ?_
        exact List.isEmpty_iff.mp hempty
      next hother =>
        have hne : other ≠ [] := fun heq => hother (List.isEmpty_iff.mpr heq)
        have hopen : ∀ loaded, Reported
            (events ++ [.setWalletLoadState other (if loaded then .Open else .Closed) error])
            (m.setWalletOpen foldCase other loaded) := by
          intro loaded
          obtain ⟨opened, items, -, -, hmem, heq⟩ :=
            WalletListModel.setWalletOpen_eq foldCase h.shape.rows h.shape.loaded other loaded
          rw [heq]
          exact h.reported.open_report hne loaded hmem rfl rfl
        cases reported with
        | Closed => exact hopen false
        | Open => exact hopen true
        | Loading => exact h.reported.loading_report hne
        | LoadError => exact h.reported.error_report hne
    | setWalletInfo other balance keySchemeKind =>
      refine h.reported.silent ?_ ?_ ?_ fun _ _ hreport => hreport
      all_goals
        simp only [WalletListModel.step, WalletListModel.setWalletInfo]
        split <;> rfl

theorem run_snoc (foldCase : QString → List Nat) (events : List Event) (e : Event) :
    WalletListModel.run foldCase (events ++ [e]) = (WalletListModel.run foldCase events).step foldCase e :=
  List.foldl_concat ..

theorem run_sound (foldCase : QString → List Nat) (hevents : Distinct events) :
    Sound foldCase events (WalletListModel.run foldCase events) := by
  induction events using List.reverseRecOn with
  | nil => exact ⟨WalletListModel.shape_empty foldCase, reported_empty⟩
  | append_singleton events e ih =>
    rw [run_snoc]
    refine (ih fun e' he' => hevents e' (List.mem_append_left _ he')).step ?_
    exact hevents e (by simp)

/-! ### What is shown -/

theorem Reported.loadState_named (h : Reported events m) (hname : name ≠ []) (hstate : Transient state) :
    m.loadState name = state ↔ StandsNamed name state events := by
  unfold WalletListModel.loadState
  rcases hstate with rfl | rfl
  · rw [← h.loading name hname]
    split
    next herror =>
      refine iff_of_false (fun heq => by cases heq) fun hloading => hname ?_
      rw [← hloading, h.exclusive (herror ▸ hname)]
    next =>
      split
      next hloading => exact iff_of_true rfl hloading
      next hloading => split <;> simp [hloading]
  · rw [← h.error name hname]
    split
    next herror => exact iff_of_true rfl herror
    next herror =>
      refine iff_of_false ?_ herror
      split
      next => exact fun heq => by cases heq
      next => split <;> exact fun heq => by cases heq

/-- The row of the default wallet is always marked. -/
theorem Reported.loadState_unnamed (h : Reported events m) :
    ((∃ name ≠ [], StandsNamed name .LoadError events) ∧ m.loadState [] = .Loading) ∨
      ((¬∃ name ≠ [], StandsNamed name .LoadError events) ∧ m.loadState [] = .LoadError) := by
  unfold WalletListModel.loadState
  by_cases herror : m.m_load_error.1 = []
  · refine .inr ⟨?_, if_pos herror⟩
    rintro ⟨name, hname, hstands⟩
    exact hname (((h.error name hname).mpr hstands).symm.trans herror)
  · refine .inl ⟨⟨_, herror, (h.error _ herror).mp rfl⟩, ?_⟩
    rw [if_neg herror, if_pos (h.exclusive herror)]

theorem Stands.unique (h : Stands name state events) (h' : Stands name state' events) (hstate : Transient state)
    (hstate' : Transient state') : state = state' := by
  unfold Stands at h h'
  induction events using List.reverseRecOn with
  | nil => exact absurd h Runs.not_since_nil
  | append_singleton events e ih =>
    have hsupersedes : ∀ s, Transient s → Reports name s e → Supersedes name e := by
      intro s hs hreport
      cases e with
      | setWalletLoadState other reported error => exact .inr hreport.1
      | listWalletDir entries => exact hreport
      | setWalletInfo other balance keySchemeKind => exact hreport
    rw [Runs.since_snoc] at h h'
    rcases h with h | ⟨h, hstays⟩
    · rcases h' with h' | ⟨-, hstays'⟩
      · cases e with
        | setWalletLoadState other reported error => exact h.2.symm.trans h'.2
        | listWalletDir entries => exact h.elim
        | setWalletInfo other balance keySchemeKind => exact h.elim
      · exact absurd (hsupersedes state hstate h) hstays'
    · rcases h' with h' | ⟨h', -⟩
      · exact absurd (hsupersedes state' hstate' h') hstays
      · exact ih h h'

theorem Stands.named (h : Stands name state events) : StandsNamed name state events := by
  obtain ⟨before, e, after, hevents, hreport, hafter⟩ := h
  refine ⟨before, e, after, hevents, hreport, fun x hx hsupersedes => hafter x hx ?_⟩
  cases x with
  | setWalletLoadState other reported error => exact hsupersedes.2
  | listWalletDir entries => exact hsupersedes
  | setWalletInfo other balance keySchemeKind => exact hsupersedes

theorem Sound.inList_iff (h : Sound foldCase events m) (name : QString) :
    name ∈ m.m_items.map Item.name ↔ InList name events := by
  rw [h.shape.rows.names]
  unfold InList
  simp only [h.reported.opened]

theorem Sound.shown_iff (h : Sound foldCase events m) :
    (∀ item ∈ m.m_items, ∀ state, Transient state →
      (m.loadState item.name = state ↔ Stands item.name state events)) ↔ Attributable events := by
  constructor
  · intro hshown
    have hrow : ∀ name, InList name events → ∀ state, Transient state →
        (m.loadState name = state ↔ Stands name state events) := by
      intro name hname
      obtain ⟨item, hitem, rfl⟩ := List.mem_map.mp ((h.inList_iff name).mpr hname)
      exact hshown item hitem
    constructor
    · intro name state hname hstate hlist hstands
      exact (hrow name hlist state hstate).mp ((h.reported.loadState_named hname hstate).mpr hstands)
    · intro names hnames hmem
      have hunnamed := hrow [] ⟨names, hnames, .inl hmem⟩
      rcases h.reported.loadState_unnamed with ⟨herror, hstate⟩ | ⟨herror, hstate⟩
      · exact ⟨fun _ => (hunnamed _ (.inl rfl)).mp hstate, fun hnone => absurd herror hnone⟩
      · exact ⟨fun hsome => absurd hsome herror, fun _ => (hunnamed _ (.inr rfl)).mp hstate⟩
  · intro hattributable item hitem state hstate
    have hlist := (h.inList_iff item.name).mp (List.mem_map_of_mem hitem)
    by_cases hname : item.name = []
    · rw [hname] at hlist ⊢
      obtain ⟨names, hnames, hmem | hopen⟩ := hlist
      · obtain ⟨hloading, herror⟩ := hattributable.unnamed names hnames hmem
        rcases h.reported.loadState_unnamed with ⟨hsome, hshown⟩ | ⟨hnone, hshown⟩
        · rw [hshown]
          exact ⟨fun heq => heq ▸ hloading hsome, fun hstands => (hloading hsome).unique hstands (.inl rfl) hstate⟩
        · rw [hshown]
          exact ⟨fun heq => heq ▸ herror hnone, fun hstands => (herror hnone).unique hstands (.inr rfl) hstate⟩
      · exact absurd rfl hopen.1
    · rw [h.reported.loadState_named hname hstate]
      exact ⟨hattributable.named _ _ hname hstate hlist, Stands.named⟩

/-! ### What is kept -/

theorem kept_of_run (foldCase : QString → List Nat) {before after : List Event} {balance keySchemeKind : Int}
    (hevents : Distinct (before ++ .setWalletInfo name balance keySchemeKind :: after)) (hname : name ≠ [])
    (hstays : ∀ mid, mid <+: after → name ∈ (WalletListModel.run foldCase
      (before ++ .setWalletInfo name balance keySchemeKind :: mid)).m_items.map Item.name)
    (hlast : ∀ balance' keySchemeKind', .setWalletInfo name balance' keySchemeKind' ∉ after) :
    ∀ item ∈ (WalletListModel.run foldCase
      (before ++ .setWalletInfo name balance keySchemeKind :: after)).m_items, item.name = name →
        item.balance = some balance ∧ item.keySchemeKind = keySchemeKind := by
  induction after using List.reverseRecOn with
  | nil =>
    intro item hitem heq
    have hbefore := run_sound foldCase fun e he => hevents e (List.mem_append_left _ he)
    rw [run_snoc, WalletListModel.step, WalletListModel.setWalletInfo, if_neg (by simpa using hname)] at hitem
    exact WalletListModel.setInfo_set hbefore.shape.rows.keyed hitem heq
  | append_singleton after e ih =>
    have hassoc : before ++ .setWalletInfo name balance keySchemeKind :: (after ++ [e]) =
        before ++ .setWalletInfo name balance keySchemeKind :: after ++ [e] := by simp
    rw [hassoc] at hevents ⊢
    have hbefore : Distinct (before ++ .setWalletInfo name balance keySchemeKind :: after) :=
      fun e' he' => hevents e' (List.mem_append_left _ he')
    rw [run_snoc]
    refine (run_sound foldCase hbefore).shape.step_info (hevents e (by simp)) ?_ ?_ ?_
    · exact hstays after (List.prefix_append ..)
    · rintro balance' keySchemeKind' rfl
      exact hlast balance' keySchemeKind' (by simp)
    · refine ih hbefore (fun mid hmid => hstays mid (hmid.trans (List.prefix_append ..))) ?_
      exact fun balance' keySchemeKind' hmem => hlast balance' keySchemeKind' (List.mem_append_left _ hmem)

theorem holds_iff (foldCase : QString → List Nat) (hevents : Distinct events) :
    Holds foldCase events ↔ Attributable events := by
  have hsound := run_sound foldCase hevents
  rw [← hsound.shown_iff]
  refine ⟨Holds.shown, fun hshown => ⟨hsound.shape.sorted, hsound.shape.rows.keyed, hsound.reported.opened, ?_,
    hshown, ?_⟩⟩
  · intro names hnames name
    rw [hsound.inList_iff, InList]
    constructor
    · rintro ⟨names', hnames', hname⟩
      rw [hnames, Option.some.injEq] at hnames'
      exact hnames' ▸ hname
    · exact fun hname => ⟨names, hnames, hname⟩
  · rintro before name balance keySchemeKind after rfl hname hstays hlast
    exact kept_of_run foldCase hevents hname hstays hlast

end Run

/-- In every state of a run the rows are as they are to be, exactly if in every state the reports can be told
from none. -/
theorem holds_iff_of_run (foldCase : QString → List Nat) {events : List Event} (hevents : Distinct events) :
    (∀ before, before <+: events → Holds foldCase before) ↔
      ∀ before, before <+: events → Attributable before := by
  refine forall_congr' fun before => forall_congr' fun hbefore => ?_
  exact holds_iff foldCase fun e he => hevents e (hbefore.subset he)

/-- Two wallets are listed, one of them is opened and gets a balance, and the other one fails to load. -/
def failedLoad : List Event :=
  [.listWalletDir [([97], []), ([98], [])], .setWalletLoadState [97] .Open [], .setWalletInfo [97] 5 1,
    .setWalletLoadState [98] .Loading [], .setWalletLoadState [98] .LoadError [33]]

theorem failedLoad_holds_iff : (∀ before, before <+: failedLoad → Holds id before) ↔
    ∀ before, before <+: failedLoad → Attributable before :=
  holds_iff_of_run id (by simp [Distinct, failedLoad, listing])

/-- The default wallet is listed, and no report was ever made. -/
theorem default_wallet_in_error :
    (WalletListModel.run id [.listWalletDir [([], [])]]).loadState [] = .LoadError ∧
      ¬∀ events, Distinct events → Holds id events := by
  have hdistinct : Distinct [.listWalletDir [([], [])]] := by simp [Distinct, listing]
  have hsilent : ∀ name state Q, ¬Runs.Since (Reports name state) Q [.listWalletDir [([], [])]] := by
    rintro name state Q ⟨before, e, after, hevents, hreport, -⟩
    have he : e ∈ [Event.listWalletDir [([], [])]] := hevents ▸ List.mem_append_right _ (List.mem_cons_self ..)
    rw [List.mem_singleton.mp he] at hreport
    exact hreport
  have hnone : ¬∃ name ≠ [], StandsNamed name .LoadError [.listWalletDir [([], [])]] :=
    fun ⟨name, _, hstands⟩ => hsilent name .LoadError _ hstands
  constructor
  · rcases (run_sound id hdistinct).reported.loadState_unnamed with ⟨herror, -⟩ | ⟨-, hshown⟩
    · exact absurd herror hnone
    · exact hshown
  · intro h
    have hattributable := (run_sound id hdistinct).shown_iff.mp (h _ hdistinct).shown
    exact hsilent [] .LoadError _ ((hattributable.unnamed [[]] rfl (List.mem_singleton_self _)).2 hnone)

end GuiQml.WalletList
