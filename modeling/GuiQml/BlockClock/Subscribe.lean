import GuiQml.BlockClock.History
import GuiQml.Lib.LastWrite

/-!
# The active chain and its snapshot

`SubscribeBlockClockHistory` walks down from one anchor. A chain is the list of its hashes, the tip
first, and every hash carries a fixed timestamp.
-/

namespace GuiQml.BlockClock

/-! ## The active chain -/

inductive ChainEvent
  | connect (hash : Hash)
  | disconnect (hash : Hash)
  deriving DecidableEq, Repr

/-- A new hash becomes the tip, or the tip is taken off. -/
def applyEvent (chain : List Hash) : ChainEvent → Option (List Hash)
  | .connect hash => if hash ∈ chain then none else some (hash :: chain)
  | .disconnect hash => if chain.head? = some hash then some chain.tail else none

def applyEvents (chain : List Hash) : List ChainEvent → Option (List Hash)
  | [] => some chain
  | event :: events => (applyEvent chain event).bind (applyEvents · events)

/-- The blocks of a chain as a map. -/
def chainMap (time : Hash → Int) (chain : List Hash) (hash : Hash) : Option Int :=
  if hash ∈ chain then some (time hash) else none

def ChainEvent.write (time : Hash → Int) : ChainEvent → LastWrite.Write Hash Int
  | .connect hash => (hash, some (time hash))
  | .disconnect hash => (hash, none)

section Chain

variable {time : Hash → Int} {chain chain' : List Hash} {events : List ChainEvent}

variable (time) in
theorem applyEvent_spec {event : ChainEvent} (hn : chain.Nodup)
    (h : applyEvent chain event = some chain') :
    chain'.Nodup ∧ chainMap time chain' =
      Function.update (chainMap time chain) (event.write time).1 (event.write time).2 := by
  cases event with
  | connect hash =>
    simp only [applyEvent] at h
    split at h
    · cases h
    · rename_i hnew
      cases h
      refine ⟨List.nodup_cons.mpr ⟨hnew, hn⟩, ?_⟩
      funext x
      by_cases hx : x = hash
      · simp [chainMap, ChainEvent.write, hx]
      · simp [chainMap, ChainEvent.write, hx]
  | disconnect hash =>
    simp only [applyEvent] at h
    split at h
    · rename_i htip
      cases h
      cases chain with
      | nil => simp at htip
      | cons tip rest =>
        simp only [List.head?_cons, Option.some.injEq] at htip
        subst htip
        obtain ⟨htip, hrest⟩ := List.nodup_cons.mp hn
        refine ⟨hrest, ?_⟩
        funext x
        by_cases hx : x = tip
        · simp [chainMap, ChainEvent.write, hx, htip]
        · by_cases hmem : x ∈ rest <;> simp [chainMap, ChainEvent.write, hx, hmem]
    · cases h

variable (time) in
theorem applyEvents_spec (hn : chain.Nodup) (h : applyEvents chain events = some chain') :
    chain'.Nodup ∧
      chainMap time chain' = LastWrite.apply (chainMap time chain) (events.map (·.write time)) := by
  induction events generalizing chain with
  | nil =>
    cases h
    exact ⟨hn, rfl⟩
  | cons event events ih =>
    obtain ⟨chain₁, h₁, h₂⟩ := Option.bind_eq_some_iff.mp h
    obtain ⟨hn₁, hmap⟩ := applyEvent_spec time hn h₁
    obtain ⟨hn', hmap'⟩ := ih hn₁ h₂
    refine ⟨hn', hmap'.trans ?_⟩
    rw [hmap]
    rfl

end Chain

/-! ## Loading the snapshot -/

/-- What `findBlock` and `findAncestorByHeight` tell about a block. `maxTime` is the latest time of
the block and its ancestors. -/
structure FoundBlock where
  hash : Hash
  height : Nat
  time : Int
  maxTime : Int

/-- The node and chain calls of the walk. `shutdownRequested` is asked again and again. -/
structure ChainApi where
  getBestBlockHash : Hash
  findBlock : Hash → Option FoundBlock
  findAncestorByHeight : Hash → Nat → Option FoundBlock
  shutdownRequested : Nat → Bool

/-- The loop, at the block `found` of the anchor's chain. No value on a shutdown. -/
def walk (api : ChainApi) (retention_start : Int) (anchor : Hash) :
    (height asked : Nat) → FoundBlock → Blocks → Option Blocks
  | height, asked, found, blocks =>
    if found.maxTime < retention_start then
      if api.shutdownRequested asked then none else some blocks
    else if api.shutdownRequested asked then none
    else
      let blocks := if retention_start ≤ found.time then blocks.insertIfNew found.hash found.time
        else blocks
      match height with
      | 0 => if api.shutdownRequested (asked + 1) then none else some blocks
      | height + 1 =>
        match api.findAncestorByHeight anchor height with
        | none => if api.shutdownRequested (asked + 1) then none else some blocks
        | some found => walk api retention_start anchor height (asked + 1) found blocks

/-- `SubscribeBlockClockHistory`, up to the call of `initialize`. -/
def loadSnapshot (api : ChainApi) (history : BlockClockHistory) : Option Blocks :=
  match history.retentionStart with
  | none => none
  | some retention_start =>
    if api.shutdownRequested 0 then none
    else match api.findBlock api.getBestBlockHash with
    | none => if api.shutdownRequested 1 then none else some ∅
    | some found =>
      let anchor := api.getBestBlockHash
      walk api retention_start anchor found.height 1 { found with hash := anchor } ∅

def maxTime (time : Hash → Int) : List Hash → Int
  | [] => 0
  | [hash] => time hash
  | hash :: rest => max (time hash) (maxTime time rest)

def found (time : Hash → Int) : List Hash → Option FoundBlock
  | [] => none
  | hash :: rest => some ⟨hash, rest.length, time hash, maxTime time (hash :: rest)⟩

/-- The chain calls answer for the chain with this tip, however the active chain moves meanwhile. -/
structure ChainApi.Describes (api : ChainApi) (time : Hash → Int) (chain : List Hash) : Prop where
  anchor : ∀ hash ∈ chain.head?, hash = api.getBestBlockHash
  tip : api.findBlock api.getBestBlockHash = found time chain
  ancestor : ∀ pre rest, chain = pre ++ rest → rest ≠ [] →
    api.findAncestorByHeight api.getBestBlockHash (rest.length - 1) = found time rest

/-- The calls on a node whose chain this is, when no shutdown is requested. -/
def ChainApi.ofChain (time : Hash → Int) (chain : List Hash) : ChainApi where
  getBestBlockHash := chain.headD 0
  findBlock hash := if chain.head? = some hash then found time chain else none
  findAncestorByHeight _ height := found time (chain.drop (chain.length - 1 - height))
  shutdownRequested _ := false

theorem describes_ofChain (time : Hash → Int) (chain : List Hash) :
    (ChainApi.ofChain time chain).Describes time chain where
  anchor := by
    intro hash hmem
    cases chain with
    | nil => simp at hmem
    | cons tip rest => simpa [ChainApi.ofChain, eq_comm] using hmem
  tip := by cases chain <;> simp [ChainApi.ofChain, found]
  ancestor := by
    rintro pre rest rfl hne
    have hpos : 0 < rest.length := List.length_pos_iff.mpr hne
    have hlen : (pre ++ rest).length - 1 - (rest.length - 1) = pre.length := by
      rw [List.length_append]
      omega
    simp only [ChainApi.ofChain, hlen, List.drop_left]

section Walk

variable {api : ChainApi} {time : Hash → Int} {chain rest pre : List Hash} {r : Int}

theorem time_le_maxTime {hash : Hash} (h : hash ∈ rest) : time hash ≤ maxTime time rest := by
  induction rest with
  | nil => simp at h
  | cons tip rest ih =>
    cases rest with
    | nil => simp_all [maxTime]
    | cons next rest =>
      rcases List.mem_cons.mp h with rfl | h
      · exact Int.le_max_left _ _
      · exact Int.le_trans (ih h) (Int.le_max_right _ _)

theorem getElem?_addBlock {blocks : Blocks} {hash : Hash} {timestamp : Int}
    (hnew : blocks[hash]? = none) (x : Hash) :
    (if r ≤ timestamp then blocks.insertIfNew hash timestamp else blocks)[x]? =
      if x = hash ∧ r ≤ timestamp then some timestamp else blocks[x]? := by
  by_cases hr : r ≤ timestamp
  · by_cases hx : x = hash
    · subst hx
      have hmem : ¬ x ∈ blocks := by simp [Std.ExtTreeMap.mem_iff_isSome_getElem?, hnew]
      rw [if_pos hr, Std.ExtTreeMap.getElem?_insertIfNew]
      simp [hr, hmem]
    · have hx' : ¬ hash = x := fun h => hx h.symm
      simp [hr, hx, hx', Std.ExtTreeMap.getElem?_insertIfNew]
  · simp [hr]

/-- The walk adds the blocks from here down that are recent enough. By induction on the blocks below:
where the latest time of all of them is too old, there is nothing left to add. -/
theorem walk_spec (hapi : api.Describes time chain) {hash : Hash} {asked : Nat}
    {blocks blocks' : Blocks} (hn : (hash :: rest).Nodup) (hchain : chain = pre ++ hash :: rest)
    (hfresh : ∀ x ∈ hash :: rest, blocks[x]? = none)
    (h : walk api r api.getBestBlockHash rest.length asked
      ⟨hash, rest.length, time hash, maxTime time (hash :: rest)⟩ blocks = some blocks') (x : Hash) :
    blocks'[x]? = if x ∈ hash :: rest ∧ r ≤ time x then some (time x) else blocks[x]? := by
  induction rest generalizing hash asked blocks pre with
  | nil =>
    have hadd := fun x => @getElem?_addBlock r blocks hash (time hash) (hfresh hash (by simp)) x
    unfold walk at h
    split at h
    · rename_i hold
      dsimp only at hold
      split at h
      · cases h
      · cases h
        rw [if_neg]
        rintro ⟨hx, hr⟩
        have : time x ≤ maxTime time [hash] := time_le_maxTime hx
        omega
    split at h
    · cases h
    · dsimp only [List.length_nil] at h
      split at h
      · cases h
      · cases h
        rw [hadd x]
        by_cases hx : x = hash <;> simp [hx]
  | cons next rest ih =>
    have hadd := fun x => @getElem?_addBlock r blocks hash (time hash) (hfresh hash (by simp)) x
    obtain ⟨hhash, hrest⟩ := List.nodup_cons.mp hn
    have hfound := hapi.ancestor (pre ++ [hash]) (next :: rest) (by simp [hchain]) (by simp)
    unfold walk at h
    split at h
    · rename_i hold
      dsimp only at hold
      split at h
      · cases h
      · cases h
        rw [if_neg]
        rintro ⟨hx, hr⟩
        have : time x ≤ maxTime time (hash :: next :: rest) := time_le_maxTime hx
        omega
    split at h
    · cases h
    · simp only [List.length_cons, Nat.add_sub_cancel] at h hfound
      rw [hfound] at h
      simp only [found] at h
      have hfresh' : ∀ y ∈ next :: rest, (if r ≤ time hash then blocks.insertIfNew hash (time hash)
          else blocks)[y]? = none := by
        intro y hy
        have hne : ¬ y = hash := by
          rintro rfl
          exact hhash hy
        rw [hadd y, if_neg (fun h => hne h.1)]
        exact hfresh y (List.mem_cons_of_mem hash hy)
      have hchain' : chain = (pre ++ [hash]) ++ next :: rest := by simp [hchain]
      rw [ih hrest hchain' hfresh' h, hadd x]
      by_cases hx : x = hash
      · subst hx
        simp [hhash]
      · simp [hx]

theorem loadSnapshot_spec {history : BlockClockHistory} {blocks : Blocks}
    (hapi : api.Describes time chain) (hn : chain.Nodup) (h : loadSnapshot api history = some blocks)
    (x : Hash) : blocks[x]? =
      if history.m_retention_start ≤ time x then chainMap time chain x else none := by
  unfold loadSnapshot BlockClockHistory.retentionStart at h
  split at h
  · cases h
  rename_i r hr
  split at hr
  · cases hr
  cases hr
  split at h
  · cases h
  rw [hapi.tip] at h
  cases chain with
  | nil =>
    simp only [found] at h
    split at h <;> cases h
    simp [chainMap]
  | cons hash rest =>
    obtain rfl := hapi.anchor hash rfl
    simp only [found] at h
    rw [walk_spec hapi hn (List.nil_append _).symm (by simp) h x]
    by_cases hx : x ∈ api.getBestBlockHash :: rest
    · simp only [chainMap, hx, true_and]
      split <;> simp
    · simp [chainMap, hx]

end Walk

end GuiQml.BlockClock
