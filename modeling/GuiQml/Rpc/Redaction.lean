import GuiQml.Rpc.Safety

/-!
# What the filtered command still shows

The extent of a sensitive command reaches from the delimiter after its name to the delimiter that
ends it, or to the end of the line. The filtered command covers all of them unless the last line end
leaves a sensitive command open.
-/

namespace GuiQml.Rpc

open Nesting

variable {UniValue Params : Type}

/-! ## Extents -/

/-- The extents of the outermost sensitive commands. One that is still open reaches to the end. -/
def Scan.extents (sc : Scan) (size : Nat) : List Span :=
  sc.closed ++
    match outermost (secrets sc.commands) with
    | some (_, start) => [(start, size)]
    | none => []

/-- A sensitive command is open after the last character, and is not the one this character ends. -/
def Scan.staysOpen (sc : Scan) : Bool :=
  match outermost (secrets sc.commands) with
  | some (depth, _) => sc.state ≠ .commandExecuted || depth ≠ 1
  | none => false

/-- The command line with its sensitive extents covered. -/
def redacted (sensitive : Str → Bool) (strCommand : Str) : Option Str :=
  match scanLine sensitive strCommand with
  | .ok sc => some (redact REDACTED 0 (sc.extents (terminated strCommand).length) strCommand)
  | .error _ => none

/-- The last line end does not end every sensitive command: a backslash takes it, or a nested command
does. -/
def leavesSecretOpen (sensitive : Str → Bool) (strCommand : Str) : Bool :=
  match scanLine sensitive strCommand with
  | .ok sc => sc.staysOpen
  | .error _ => false

theorem covers_of_staysOpen {sc : Scan} (size : Nat) (h : sc.staysOpen = true) :
    sc.covers size = sc.closed ∧
      ∃ depth start, outermost (secrets sc.commands) = some (depth, start) ∧
        sc.extents size = sc.closed ++ [(start, size)] := by
  unfold Scan.staysOpen at h
  split at h
  · rename_i depth start hout
    refine ⟨?_, depth, start, hout, by simp [Scan.extents, hout]⟩
    unfold Scan.covers
    split
    · rename_i hs
      have hdepth : depth ≠ 1 := by simpa [hs] using h
      simp [covered_eq, Counter.of, hout, hdepth]
    · simp
  · cases h

theorem covers_of_not_staysOpen {sc : Scan} {size : Nat} (h : sc.staysOpen = false) :
    sc.covers size = sc.extents size := by
  unfold Scan.staysOpen at h
  unfold Scan.covers Scan.extents covered
  split at h
  · rename_i depth start hout
    simp only [Bool.or_eq_false_iff, decide_eq_false_iff_not, ne_eq, not_not] at h
    obtain ⟨hs, rfl⟩ := h
    simp [hs, hout]
  · rename_i hout
    simp [hout]

theorem Framed.extent_inOrder {pos : Nat} {commands : List Command} {closed : List Span}
    {depth start : Nat} (h : Framed pos commands closed)
    (hout : outermost (secrets commands) = some (depth, start)) :
    InOrder 0 (pos - 1) (closed ++ [(start, pos)]) := by
  have hmem := outermost_mem hout
  have := h.secret start hmem
  exact h.inOrder.append (fun span hs => h.apart span hs start hmem) (by omega) (by omega)
    (by omega)

/-! ## A secret is never the mark itself -/

section Mark

variable {sensitive : Str → Bool} {sc sc' : Scan} {pos start : Nat} {ch : Char}

theorem addWord_commands (h : sc.addWord sensitive pos = some sc') :
    ∃ command command' rest, sc.commands = command :: rest ∧ sc'.commands = command' :: rest ∧
      sc'.closed = sc.closed ∧ sc'.word = [] ∧ command'.named = true ∧
      ∀ b, command'.secret = some b → command.secret = some b ∨ b = pos := by
  unfold Scan.addWord at h
  split at h
  · cases h
  · rename_i command rest hc
    cases h
    refine ⟨command, _, rest, hc, rfl, rfl, rfl, ?_, ?_⟩
    · split <;> simp_all
    · intro b hb
      split at hb
      · exact .inl hb
      · cases hsens : sensitive sc.word <;> simp_all

theorem secrets_enter : some start ∈ secrets (sc.enter ch).commands →
    some start ∈ secrets sc.commands := by
  unfold Scan.enter
  split <;> simp

theorem execute_commands : (sc.execute ch).commands = sc.commands := by
  unfold Scan.execute
  split <;> rfl

theorem secrets_outer_between (hb : sc.state ≠ .argument)
    (h : sc.outer sensitive pos ch = .ok sc') : sc'.commands = sc.commands := by
  unfold Scan.outer at h
  split at h
  · cases h; rfl
  split at h
  · cases h; rfl
  split at h
  · cases h; rfl
  split at h
  · unfold Scan.bracket at h
    split at h
    · cases h
    · exact absurd (by assumption) hb
    · cases h; exact execute_commands
  split at h
  · unfold Scan.blank at h
    split at h
    · exact absurd (by assumption) hb
    · split at h <;> cases h
      rfl
    · cases h; rfl
    · cases h; rfl
  · cases h; rfl

theorem scan_of_argument (hs : sc.state = .argument) :
    sc.scan sensitive pos ch = sc.outer sensitive pos ch := by
  unfold Scan.scan
  rw [hs]

theorem secrets_scan_of_not_argument (hs : sc.state ≠ .argument)
    (h : sc.scan sensitive pos ch = .ok sc') (hmem : some start ∈ secrets sc'.commands) :
    some start ∈ secrets sc.commands := by
  unfold Scan.scan at h
  split at h
  · split at h
    · cases h
      exact hmem
    · rw [secrets_outer_between (by simp [Scan.endCommand]) h] at hmem
      exact Framed.secrets_tail hmem
  · cases h
    exact hmem
  · cases h
    split at hmem <;> exact hmem
  · cases h
    split at hmem
    · exact hmem
    · split at hmem <;> exact hmem
  · cases h
    exact hmem
  · cases h
    exact hmem
  · rw [secrets_outer_between hs h] at hmem
    exact hmem

theorem secrets_scan (h : sc.scan sensitive pos ch = .ok sc')
    (hmem : some start ∈ secrets sc'.commands) : some start ∈ secrets sc.commands ∨ start = pos := by
  by_cases hs : sc.state = .argument
  · rw [scan_of_argument hs] at h
    have hadd : ∀ sc₀ sc₁ : Scan, sc₀.addWord sensitive pos = some sc₁ →
        (some start ∈ secrets sc₀.commands → some start ∈ secrets sc.commands) →
        sc'.commands = sc₁.commands → some start ∈ secrets sc.commands ∨ start = pos := by
      intro sc₀ sc₁ hword hsub heq
      obtain ⟨command, command', rest, hc, hc', -, -, -, hsecret⟩ := addWord_commands hword
      rw [heq, hc', secrets_cons] at hmem
      rcases List.mem_cons.mp hmem with hmem | hmem
      · rcases hsecret start hmem.symm with h | h
        · exact .inl (hsub (by simp [hc, h]))
        · exact .inr h
      · exact .inl (hsub (by simp [hc, hmem]))
    unfold Scan.outer at h
    repeat' split at h
    · cases h; exact .inl hmem
    · cases h; exact .inl hmem
    · cases h; exact .inl hmem
    · simp only [Scan.bracket, hs] at h
      split at h
      · cases h
      · rename_i sc₁ hword
        cases h
        exact hadd _ sc₁ hword secrets_enter execute_commands
    · simp only [Scan.blank, hs] at h
      split at h
      · cases h
      · rename_i sc₁ hword
        cases h
        exact hadd _ sc₁ hword id rfl
    · cases h; exact .inl hmem
  · exact .inl (secrets_scan_of_not_argument hs h hmem)

theorem secrets_scanAll {line : Str} (h : Scan.scanAll sensitive sc pos line = .ok sc')
    (hmem : some start ∈ secrets sc'.commands) :
    some start ∈ secrets sc.commands ∨ pos ≤ start := by
  induction line generalizing sc pos with
  | nil =>
    cases h
    exact .inl hmem
  | cons ch rest ih =>
    unfold Scan.scanAll at h
    split at h
    · cases h
    · rename_i sc₁ hstep
      rcases ih h with hs | hs
      · rcases secrets_scan hstep hs with h | h
        · exact .inl h
        · exact .inr (by omega)
      · exact .inr (by omega)

theorem scan_other (hs : sc.state = .argument ∨ sc.state = .eatingSpacesInBrackets)
    (hch : ch = '\u00e2' ∨ ch = '\u0080' ∨ ch = '\u00a6') :
    sc.scan sensitive pos ch = .ok { sc with state := .argument, word := sc.word ++ [ch] } := by
  rcases hs with hs | hs <;> rcases hch with rfl | rfl | rfl <;> simp [Scan.scan, Scan.outer, hs]

theorem scanAll_mark {command : Command} {rest : List Command}
    (hs : sc.state = .eatingSpacesInBrackets) (hc : sc.commands = command :: rest)
    (hn : command.named = true)
    (h : Scan.scanAll sensitive sc pos ['\u00e2', '\u0080', '\u00a6', ')', '\n'] = .ok sc') :
    sc'.commands = rest := by
  rw [Scan.scanAll, scan_other (.inr hs) (by simp)] at h
  simp only [Scan.scanAll] at h
  rw [scan_other (.inl rfl) (by simp)] at h
  simp only at h
  rw [scan_other (.inl rfl) (by simp)] at h
  simp [Scan.scan, Scan.outer, Scan.bracket, Scan.enter, Scan.addWord, Scan.execute,
    Scan.endCommand, hc, hn] at h
  split at h <;> subst h <;> simp

/-- After the mark and the line end no secret starts at the mark. -/
theorem mark_not_open {pre : Str} (hwf : sc.Wf pre)
    (h : Scan.scanAll sensitive sc pre.length (REDACTED ++ ['\n']) = .ok sc') :
    some pre.length ∉ secrets sc'.commands := by
  intro hmem
  have hbefore : some pre.length ∉ secrets sc.commands := fun hx => by
    have := (hwf.framed.secret _ hx).2
    omega
  rw [show REDACTED ++ ['\n'] = '(' :: ['\u00e2', '\u0080', '\u00a6', ')', '\n'] from rfl,
    Scan.scanAll] at h
  split at h
  · cases h
  rename_i sc₁ hstep
  rcases secrets_scanAll h hmem with hmem₁ | hle
  · by_cases hs : sc.state = .argument
    · -- the bracket names a command: the rest of the mark ends just that one
      rw [scan_of_argument hs] at hstep
      simp only [Scan.outer, Char.reduceEq, if_false, true_or, if_true, Scan.bracket, hs] at hstep
      split at hstep
      · cases hstep
      rename_i sc₂ hword
      cases hstep
      obtain ⟨command, command', rest, hc, hc', -, hw, hn, -⟩ := addWord_commands hword
      have hsc' : sc'.commands = rest := by
        refine scanAll_mark ?_ ?_ hn h
        · simp [Scan.execute]
        · rw [execute_commands, hc']
      rw [hsc'] at hmem
      exact hbefore (@secrets_enter sc _ '(' (by simp [hc, hmem]))
    · exact hbefore (secrets_scan_of_not_argument hs hstep hmem₁)
  · omega

theorem scanAll_append {a b : Str} (h : Scan.scanAll sensitive sc pos (a ++ b) = .ok sc') :
    ∃ sc₁, Scan.scanAll sensitive sc pos a = .ok sc₁ ∧
      Scan.scanAll sensitive sc₁ (pos + a.length) b = .ok sc' := by
  induction a generalizing sc pos with
  | nil => exact ⟨sc, rfl, h⟩
  | cons ch rest ih =>
    rw [List.cons_append, Scan.scanAll] at h
    rw [Scan.scanAll]
    split at h
    · cases h
    · rename_i sc₁ hstep
      obtain ⟨sc₂, h₁, h₂⟩ := ih h
      exact ⟨sc₂, h₁, by simpa [Nat.add_assoc, Nat.add_comm 1] using h₂⟩

theorem open_secret_not_mark {strCommand : Str} {depth : Nat}
    (hscan : scanLine sensitive strCommand = .ok sc)
    (hout : outermost (secrets sc.commands) = some (depth, start)) :
    strCommand.drop start ≠ REDACTED := by
  intro hmark
  have hlen : start ≤ strCommand.length := by
    have := congrArg List.length hmark
    simp [REDACTED] at this
    omega
  have hline : terminated strCommand = strCommand.take start ++ (REDACTED ++ ['\n']) := by
    have hsplit : strCommand = strCommand.take start ++ REDACTED := by
      rw [← hmark, List.take_append_drop]
    have hlast : strCommand.getLast? ≠ some '\n' := by
      rw [hsplit]
      simp [REDACTED]
    unfold terminated
    rw [if_neg hlast, ← List.append_assoc, ← hsplit]
  unfold scanLine at hscan
  rw [hline] at hscan
  obtain ⟨sc₁, hpre, hrest⟩ := scanAll_append hscan
  have hwf : sc₁.Wf ([] ++ strCommand.take start) := scanAll_wf Scan.wf_start hpre
  have hstart : (strCommand.take start).length = start := by
    rw [List.length_take, Nat.min_eq_left hlen]
  have := mark_not_open hwf (by simpa using hrest)
  rw [List.nil_append, hstart] at this
  exact this (outermost_mem hout)

end Mark

/-! ## The filtered command -/

section Filtered

variable {cfg : Settings UniValue Params} {strCommand : Str} {parsed : Parsed}

/-- What the parser's filtered command covers, in the scanner's words. -/
theorem filtered_covers (hwant : cfg.wantsFiltered = true)
    (h : RPCParseCommandLine cfg strCommand = .ok parsed) :
    ∃ sc, scanLine (historyFilterContains cfg.api) strCommand = .ok sc ∧
      sc.Wf (terminated strCommand) ∧ parsed.filtered =
        some (redact REDACTED 0 (sc.covers (terminated strCommand).length) strCommand) := by
  have hne : strCommand ≠ [] := by
    rintro rfl
    simp [RPCParseCommandLine] at h
  have hreads := parse_reads cfg hne
  rw [h] at hreads
  cases hreads with
  | returned hscan hwf _ hfiltered => exact ⟨_, hscan, hwf, hfiltered hwant⟩

/-- The filtered output is the command with every sensitive extent covered, exactly when the last
line end leaves no sensitive command open. -/
theorem filtered_redacts_iff (hwant : cfg.wantsFiltered = true)
    (h : RPCParseCommandLine cfg strCommand = .ok parsed) :
    parsed.filtered = redacted (historyFilterContains cfg.api) strCommand ↔
      leavesSecretOpen (historyFilterContains cfg.api) strCommand = false := by
  obtain ⟨sc, hscan, hwf, hfiltered⟩ := filtered_covers hwant h
  simp only [redacted, leavesSecretOpen, hscan, hfiltered, Option.some.injEq]
  cases hopen : sc.staysOpen with
  | false => simp [covers_of_not_staysOpen hopen]
  | true =>
    obtain ⟨hcovers, depth, start, hout, hextents⟩ :=
      covers_of_staysOpen (terminated strCommand).length hopen
    have hlen := length_terminated strCommand
    simp only [hcovers, hextents, Bool.true_eq_false, iff_false]
    rw [redact_snoc_eq_iff REDACTED (hwf.framed.extent_inOrder hout)]
    simp only [Nat.sub_zero]
    rw [List.drop_eq_nil_of_le hlen.2, List.append_nil]
    exact open_secret_not_mark hscan hout

/-- Two lines that differ only inside sensitive extents have the same filtered command. -/
theorem filtered_eq_of_redacted_eq {strCommand' : Str} {parsed' : Parsed}
    (hwant : cfg.wantsFiltered = true)
    (h : RPCParseCommandLine cfg strCommand = .ok parsed)
    (h' : RPCParseCommandLine cfg strCommand' = .ok parsed')
    (hopen : leavesSecretOpen (historyFilterContains cfg.api) strCommand = false)
    (hopen' : leavesSecretOpen (historyFilterContains cfg.api) strCommand' = false)
    (heq : redacted (historyFilterContains cfg.api) strCommand =
      redacted (historyFilterContains cfg.api) strCommand') :
    parsed.filtered = parsed'.filtered := by
  obtain ⟨sc, hscan, -, hfiltered⟩ := filtered_covers hwant h
  obtain ⟨sc', hscan', -, hfiltered'⟩ := filtered_covers hwant h'
  simp only [leavesSecretOpen, hscan, hscan'] at hopen hopen'
  simpa [redacted, hscan, hscan', hfiltered, hfiltered', covers_of_not_staysOpen hopen,
    covers_of_not_staysOpen hopen'] using heq

end Filtered

/-- The parse that fills the history, with values that are texts. -/
def historyCfg : Settings Str (List Str) := ⟨plainApi, fun _ => plainApi.null, false, true, []⟩

/-- A passphrase between a command name and the line end is covered. -/
theorem filtered_redacts_walletpassphrase :
    some ("walletpassphrase".toList ++ REDACTED) =
        redacted (historyFilterContains plainApi) "walletpassphrase secret 60".toList ↔
      leavesSecretOpen (historyFilterContains plainApi) "walletpassphrase secret 60".toList = false :=
  @filtered_redacts_iff _ _ historyCfg "walletpassphrase secret 60".toList
    ⟨true, "null".toList, some ("walletpassphrase".toList ++ REDACTED)⟩ rfl (by decide +kernel)

/-- Behind a backslash, and behind a nested command without its bracket, the passphrase stays. -/
theorem filtered_shows_secret :
    RPCParseCommandLine historyCfg "walletpassphrase secret\\".toList =
        .ok ⟨true, [], some "walletpassphrase secret\\".toList⟩ ∧
      redacted (historyFilterContains plainApi) "walletpassphrase secret\\".toList =
        some ("walletpassphrase".toList ++ REDACTED) ∧
      RPCParseCommandLine historyCfg "walletpassphrase secret help(x".toList =
        .ok ⟨true, "null".toList, some "walletpassphrase secret help(x".toList⟩ ∧
      redacted (historyFilterContains plainApi) "walletpassphrase secret help(x".toList =
        some ("walletpassphrase".toList ++ REDACTED) := by
  decide +kernel

end GuiQml.Rpc
