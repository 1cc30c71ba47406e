import GuiQml.Rpc.Simulation

/-!
# Which command lines are safe to parse

Two kinds of lines make the parser do what C++ does not define: a word behind the end of the
top-level command, and, when executing, a command without a name.
-/

namespace GuiQml.Rpc

open Nesting

variable {UniValue Params : Type}

/-- The parser returned, or it threw a `runtime_error`. -/
def Safe : Except Stop Parsed → Prop
  | .ok _ | .error (.runtimeError _) => True
  | _ => False

/-! ## After the loop -/

theorem replaceRanges_eq {text : Str} {ranges : List Span} {pos : Nat}
    (h : InOrder pos text.length ranges) :
    ranges.foldr (fun range out => Parser.replaceRange out range) (.ok text) =
      .ok (ranges.foldr (fun range out => coverSpan REDACTED out range) text) := by
  induction ranges generalizing pos with
  | nil => rfl
  | cons range ranges ih =>
    obtain ⟨start, stop⟩ := range
    obtain ⟨-, h2, h3, h4⟩ := h
    have hrest : stop ≤ text.length ∨ ranges = [] := by
      cases ranges with
      | nil => exact .inr rfl
      | cons next ranges => exact .inl (Nat.le_trans h4.1 h4.2.2.1)
    rw [List.foldr_cons, ih h4, List.foldr_cons, foldr_coverSpan REDACTED h4 hrest]
    have hin : ¬ (text.take stop ++ redact REDACTED stop ranges (text.drop stop)).length < start := by
      simp only [List.length_append, List.length_take]
      omega
    simp only [Parser.replaceRange, if_neg hin]

theorem length_terminated (strCommand : Str) :
    (terminated strCommand).length ≤ strCommand.length + 1 ∧
      strCommand.length ≤ (terminated strCommand).length := by
  unfold terminated
  split <;> simp

section Loop

variable {cfg : Settings UniValue Params} {p : Parser UniValue Params} {sc : Scan}
  {strCommand : Str}

/-- The extents that the parser covers: those of commands that ended, the last of them at the end of
the line. -/
def Scan.covers (sc : Scan) (size : Nat) : List Span :=
  sc.closed ++ if sc.state = .commandExecuted then covered (secrets sc.commands) size else []

variable (cfg) in
theorem filterOut_eq (hwf : sc.Wf (terminated strCommand)) (h : Sim p sc) :
    ∃ p' filtered, p.filterOut cfg (terminated strCommand).length strCommand = .ok (p', filtered) ∧
      p'.state = sc.state ∧ (cfg.wantsFiltered = true → filtered =
        some (redact REDACTED 0 (sc.covers (terminated strCommand).length) strCommand)) := by
  have hlen := length_terminated strCommand
  have hreplace : ∀ q : Parser UniValue Params,
      InOrder 0 ((terminated strCommand).length - 1) q.filter_ranges →
      q.replaceRanges strCommand = .ok (redact REDACTED 0 q.filter_ranges strCommand) := by
    intro q hq
    have hq : InOrder 0 strCommand.length q.filter_ranges := hq.mono (by omega)
    unfold Parser.replaceRanges
    rw [replaceRanges_eq hq, foldr_coverSpan REDACTED hq (.inl (Nat.zero_le _))]
    simp
  unfold Parser.filterOut
  cases hw : cfg.wantsFiltered with
  | false => exact ⟨p, none, rfl, h.state, fun hx => nomatch hx⟩
  | true =>
    simp only [Bool.not_true, Bool.false_eq_true, if_false, h.state]
    by_cases hs : sc.state = .commandExecuted
    · have hlive := hwf.live (by rw [hs]; rfl)
      obtain ⟨command, rest, hc⟩ := List.exists_cons_of_ne_nil hlive
      have hstack : p.stack.isEmpty = false := by
        cases hp : p.stack with
        | nil => exact absurd (h.tracks.stack_nil_iff.mp hp) hlive
        | cons => rfl
      have hf := hwf.framed
      have ht := h.tracks
      rw [hc] at hf ht
      obtain ⟨p', hclose, ht', hst, -⟩ := closeOutParams_sim hf ht
      have horder := hf.pop_inOrder
      rw [← ht'.ranges] at horder
      refine ⟨p', _, ?_, hst.trans h.state, fun _ => rfl⟩
      simp only [hs, if_true, hstack, Bool.false_eq_true, if_false, hclose, hreplace p' horder,
        Scan.covers, ht'.ranges, hc]
    · have horder := hwf.framed.inOrder
      rw [← h.tracks.ranges] at horder
      refine ⟨p, _, ?_, h.state, fun _ => rfl⟩
      simp only [hs, if_false, hreplace p horder, Scan.covers, h.tracks.ranges, List.append_nil]

/-- What a call of the parser comes to, by what the scanner says about the line. -/
inductive Reads (cfg : Settings UniValue Params) (strCommand : Str) : Except Stop Parsed → Prop
  | returned {sc parsed} : scanLine (historyFilterContains cfg.api) strCommand = .ok sc →
      sc.Wf (terminated strCommand) →
      (parsed.accepted = true ↔
        sc.state = .commandExecuted ∨ sc.state = .argument ∨ sc.state = .eatingSpaces) →
      (cfg.wantsFiltered = true → parsed.filtered =
        some (redact REDACTED 0 (sc.covers (terminated strCommand).length) strCommand)) →
      Reads cfg strCommand (.ok parsed)
  | threw {what} : Reads cfg strCommand (.error (.runtimeError what))
  | stray : scanLine (historyFilterContains cfg.api) strCommand = .error .strayWord →
      Reads cfg strCommand (.error .undefinedBehaviour)
  | unnamed : cfg.fExecute = true → UnnamedEnd (terminated strCommand) →
      Reads cfg strCommand (.error .undefinedBehaviour)

theorem parse_reads (cfg : Settings UniValue Params) (hne : strCommand ≠ []) :
    Reads cfg strCommand (RPCParseCommandLine cfg strCommand) := by
  have hfollows := line_sim cfg (terminated strCommand)
  have hempty : strCommand.isEmpty = false := by simpa using hne
  unfold RPCParseCommandLine
  simp only [hempty, Bool.false_eq_true, if_false]
  generalize hr : Scan.scanAll (historyFilterContains cfg.api) {} 0 (terminated strCommand) = r
    at hfollows
  generalize Parser.feedAll cfg { lastResult := cfg.api.null } 0 (terminated strCommand) = out
    at hfollows ⊢
  cases hfollows with
  | @sim p sc hsim =>
    have hwf : sc.Wf ([] ++ terminated strCommand) := scanAll_wf Scan.wf_start hr
    obtain ⟨p', filtered, hfilter, hst, hfiltered⟩ := filterOut_eq cfg hwf hsim
    simp only [hfilter, hst]
    cases hs : sc.state
    all_goals exact .returned hr hwf (by simp [hs]) hfiltered
  | invalid => exact .threw
  | stray => exact .stray hr
  | threw => exact .threw
  | unnamed hexec hend => exact .unnamed hexec hend

end Loop

/-! ## Lines that are not safe -/

section Unsafe

variable {cfg : Settings UniValue Params} {value : UniValue} {pos : Nat} {ch : Char}

theorem feed_leading (hch : Leading ch) :
    Parser.feed cfg { lastResult := value } pos ch = .ok { lastResult := value } := by
  rcases hch with rfl | rfl | rfl | rfl
  all_goals rfl

theorem feed_unnamed (hexec : cfg.fExecute = true) (hch : ch = ')' ∨ ch = '\n') :
    Parser.feed cfg { lastResult := value } pos ch = .error .undefinedBehaviour := by
  rcases hch with rfl | rfl
  all_goals simp [Parser.feed, Parser.outerChar, Parser.bracketChar, Parser.executeCommand, hexec]

theorem feedAll_unnamed {line : Str} (hexec : cfg.fExecute = true) (h : UnnamedEnd line) :
    Parser.feedAll cfg { lastResult := value } pos line = .error .undefinedBehaviour := by
  obtain ⟨pre, ch, post, rfl, hpre, hch⟩ := h
  induction pre generalizing pos with
  | nil => simp [Parser.feedAll, feed_unnamed hexec hch]
  | cons c pre ih =>
    rw [List.cons_append, Parser.feedAll, feed_leading (hpre c (by simp))]
    exact ih fun x hx => hpre x (by simp [hx])

theorem feedAll_stray {line : Str} (hexec : cfg.fExecute = false)
    (h : Scan.scanAll (historyFilterContains cfg.api) {} 0 line = .error .strayWord) :
    Parser.feedAll cfg { lastResult := cfg.api.null } 0 line = .error .undefinedBehaviour := by
  have hfollows := line_sim cfg line
  rw [h] at hfollows
  generalize Parser.feedAll cfg { lastResult := cfg.api.null } 0 line = out at hfollows ⊢
  cases hfollows with
  | stray => rfl
  | threw hx => simp [hexec] at hx
  | unnamed => rfl

/-- In both modes and with any results of the node, parsing is safe exactly when no word stands
behind the end of the top-level command and no command without a name ends. -/
theorem parse_safe_iff (api : RpcApi UniValue Params) {strCommand : Str} (hne : strCommand ≠ []) :
    (∀ node fExecute wantsFiltered wallet_name,
      Safe (RPCParseCommandLine ⟨api, node, fExecute, wantsFiltered, wallet_name⟩ strCommand)) ↔
    scanLine (historyFilterContains api) strCommand ≠ .error .strayWord ∧
      ¬ UnnamedEnd (terminated strCommand) := by
  have hempty : strCommand.isEmpty = false := by simpa using hne
  constructor
  · intro hsafe
    refine ⟨fun hstray => ?_, fun hend => ?_⟩
    · have h := hsafe (fun _ => api.null) false false []
      unfold RPCParseCommandLine at h
      rw [feedAll_stray rfl (by exact hstray)] at h
      simp [hempty, Safe] at h
    · have h := hsafe (fun _ => api.null) true false []
      unfold RPCParseCommandLine at h
      rw [feedAll_unnamed rfl hend] at h
      simp [hempty, Safe] at h
  · rintro ⟨hstray, hend⟩ node fExecute wantsFiltered wallet_name
    have hreads := parse_reads ⟨api, node, fExecute, wantsFiltered, wallet_name⟩ hne
    generalize RPCParseCommandLine ⟨api, node, fExecute, wantsFiltered, wallet_name⟩ strCommand = out
      at hreads ⊢
    cases hreads with
    | returned => trivial
    | threw => trivial
    | stray hx => exact absurd hx hstray
    | unnamed _ hx => exact absurd hx hend

end Unsafe

/-- Values that are texts, as a node without numbers and objects would return them. -/
def plainApi : RpcApi Str (List Str) where
  null := "null".toList
  getStr _ := none
  write := id
  isArray _ := false
  isObject _ := false
  elementAt value _ := value
  findValue value _ := value
  toIntegral _ := none
  convertValues _ strParams := .ok strParams
  toPercentEncoding := id
  equalsIgnoringCase a b := a.map Char.toLower = b.map Char.toLower

theorem parse_safe_getblockhash :
    (∀ node fExecute wantsFiltered wallet_name, Safe (RPCParseCommandLine
      ⟨plainApi, node, fExecute, wantsFiltered, wallet_name⟩ "getblockhash(0)".toList)) ↔
    scanLine (historyFilterContains plainApi) "getblockhash(0)".toList ≠ .error .strayWord ∧
      ¬ UnnamedEnd (terminated "getblockhash(0)".toList) :=
  parse_safe_iff plainApi (by decide)

/-- A word and a blank behind the closed top-level command, and an empty command to execute. -/
theorem parse_undefined :
    ¬ Safe (RPCParseCommandLine ⟨plainApi, fun _ => plainApi.null, false, false, []⟩
        "help() x y".toList) ∧
      ¬ Safe (RPCParseCommandLine ⟨plainApi, fun _ => plainApi.null, true, false, []⟩
        "()".toList) := by
  have h : ∀ out : Except Stop Parsed, out = .error .undefinedBehaviour → ¬ Safe out := by
    rintro _ rfl
    exact id
  exact ⟨h _ (by decide +kernel), h _ (by decide +kernel)⟩

end GuiQml.Rpc
