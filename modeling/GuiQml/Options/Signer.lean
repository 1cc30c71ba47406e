import GuiQml.Amount.Text
import GuiQml.Options.Model

/-!
# The check of a signer path

The page asks for a check whenever its text changes. One check is on its way at a time, and where the text has
changed meanwhile, a check of the new text follows it. What `QUrl` and `QFileInfo` say is a parameter.
-/

namespace GuiQml.Options.Signer

open GuiQml.Settings (Str)
open Pipelines

/-! ## The first token of a command -/

/-- `\s` of a regular expression. -/
def isBlank (c : Char) : Bool := c = ' ' || (9 ≤ c.toNat && c.toNat ≤ 13)

/-- A text in quotes, with at least one character between them. -/
def captured (quote : Char) : Str → Option Str
  | [] => none
  | c :: rest =>
    let token := rest.takeWhile fun c => c ≠ quote
    if c = quote && rest.contains quote && !token.isEmpty then some token else none

def doubleQuote : Char := '"'

def singleQuote : Char := '\''

/-- The alternatives of the expression in their order. Blanks that are left out cannot be put back. -/
def firstCommandToken (command : Str) : Str :=
  let command := command.dropWhile isBlank
  ((captured doubleQuote command).or (captured singleQuote command)).getD (command.takeWhile fun c => !isBlank c)

/-- `text` starts with `token` in quotes. -/
def Quoted (token text : Str) : Prop :=
  token ≠ [] ∧ ∃ quote rest, (quote = doubleQuote ∨ quote = singleQuote) ∧ quote ∉ token ∧
    text = quote :: token ++ quote :: rest

/-- What is run first: what is in quotes, or what is up to the next blank. -/
inductive FirstToken : Str → Str → Prop
  | blank {command} : (∀ c ∈ command, isBlank c = true) → FirstToken command []
  | quoted {blanks text token} : (∀ c ∈ blanks, isBlank c = true) → Quoted token text →
      FirstToken (blanks ++ text) token
  | bare {blanks token rest} : (∀ c ∈ blanks, isBlank c = true) → token ≠ [] →
      (∀ c ∈ token, isBlank c = false) → (∀ c ∈ rest.head?, isBlank c = true) →
      (∀ quoted, ¬ Quoted quoted (token ++ rest)) → FirstToken (blanks ++ (token ++ rest)) token

theorem captured_eq_some {quote : Char} {text token : Str} :
    captured quote text = some token ↔
      token ≠ [] ∧ quote ∉ token ∧ ∃ rest, text = quote :: token ++ quote :: rest := by
  have htake {token rest : Str} (hnot : quote ∉ token) :
      (token ++ quote :: rest).takeWhile (fun c => decide (c ≠ quote)) = token := by
    rw [List.takeWhile_append_of_pos, List.takeWhile_cons_of_neg (by simp), List.append_nil]
    intro c hc
    simpa using fun heq : c = quote => hnot (heq ▸ hc)
  constructor
  · intro h
    cases text with
    | nil => cases h
    | cons c rest =>
      dsimp only [captured] at h
      split at h
      · rename_i hquoted
        simp only [Bool.and_eq_true, decide_eq_true_eq, List.contains_iff_mem, Bool.not_eq_true',
          List.isEmpty_eq_false_iff] at hquoted
        obtain ⟨⟨rfl, hmem⟩, hne⟩ := hquoted
        obtain ⟨before, after, rfl, hnot⟩ := List.eq_append_cons_of_mem hmem
        rw [htake hnot] at h hne
        cases h
        exact ⟨hne, hnot, after, rfl⟩
      · cases h
  · rintro ⟨hne, hnot, rest, rfl⟩
    simp only [captured, List.cons_append]
    rw [htake hnot]
    simp [hne]

theorem quoted_iff {token text : Str} :
    Quoted token text ↔ captured doubleQuote text = some token ∨ captured singleQuote text = some token := by
  simp only [captured_eq_some]
  constructor
  · rintro ⟨hne, quote, rest, rfl | rfl, hnot, htext⟩
    · exact .inl ⟨hne, hnot, rest, htext⟩
    · exact .inr ⟨hne, hnot, rest, htext⟩
  · rintro (⟨hne, hnot, rest, htext⟩ | ⟨hne, hnot, rest, htext⟩)
    · exact ⟨hne, _, rest, .inl rfl, hnot, htext⟩
    · exact ⟨hne, _, rest, .inr rfl, hnot, htext⟩

theorem Quoted.captured_or {token text : Str} (h : Quoted token text) :
    (captured doubleQuote text).or (captured singleQuote text) = some token := by
  rcases quoted_iff.1 h with h | h
  · simp [h]
  · have hnone : captured doubleQuote text = none := by
      obtain ⟨-, -, rest, rfl⟩ := captured_eq_some.1 h
      have hquotes : singleQuote ≠ doubleQuote := by decide
      simp [captured, hquotes]
    simp [h, hnone]

theorem captured_or_none {text : Str} (h : ∀ token, ¬ Quoted token text) :
    (captured doubleQuote text).or (captured singleQuote text) = none := by
  rw [Option.or_eq_none_iff]
  constructor
  · exact Option.eq_none_iff_forall_ne_some.2 fun token htoken => h token (quoted_iff.2 (.inl htoken))
  · exact Option.eq_none_iff_forall_ne_some.2 fun token htoken => h token (quoted_iff.2 (.inr htoken))

theorem head_dropWhile {p : Char → Bool} {text : Str} : ∀ c ∈ (text.dropWhile p).head?, p c = false := by
  intro c hc
  have h := List.head?_dropWhile_not p text
  rw [Option.mem_def] at hc
  simpa [hc] using h

theorem firstToken_firstCommandToken (command : Str) : FirstToken command (firstCommandToken command) := by
  have hsplit : command.takeWhile isBlank ++ command.dropWhile isBlank = command := List.takeWhile_append_dropWhile
  have hblanks : ∀ c ∈ command.takeWhile isBlank, isBlank c = true := fun c hc => List.mem_takeWhile_imp hc
  have hhead : ∀ c ∈ (command.dropWhile isBlank).head?, isBlank c = false := head_dropWhile
  unfold firstCommandToken
  dsimp only
  by_cases hquoted : ∃ token, Quoted token (command.dropWhile isBlank)
  · obtain ⟨token, htoken⟩ := hquoted
    rw [htoken.captured_or, Option.getD_some]
    have h := FirstToken.quoted hblanks htoken
    rwa [hsplit] at h
  · rw [not_exists] at hquoted
    rw [captured_or_none hquoted, Option.getD_none]
    cases htext : command.dropWhile isBlank with
    | nil =>
      rw [htext, List.append_nil] at hsplit
      exact .blank (hsplit ▸ hblanks)
    | cons c text =>
      -- the first character behind the blanks starts a token
      rw [htext] at hhead hquoted hsplit
      have hc : isBlank c = false := hhead c rfl
      have hwhole := @List.takeWhile_append_dropWhile _ (fun c => !isBlank c) (c :: text)
      have h := @FirstToken.bare (command.takeWhile isBlank) ((c :: text).takeWhile fun c => !isBlank c)
        ((c :: text).dropWhile fun c => !isBlank c) hblanks ?_ ?_ ?_ ?_
      · rwa [hwhole, hsplit] at h
      · simp [hc]
      · exact fun c hc => by simpa using List.mem_takeWhile_imp hc
      · exact fun c hc => by simpa using head_dropWhile c hc
      · rwa [hwhole]

theorem FirstToken.eq {command token : Str} (h : FirstToken command token) : firstCommandToken command = token := by
  unfold firstCommandToken
  dsimp only
  cases h with
  | blank h =>
    rw [List.dropWhile_eq_nil_iff.2 h]
    rfl
  | @quoted blanks text token hblanks hquoted =>
    have htext : text.dropWhile isBlank = text := by
      obtain ⟨-, quote, rest, hquote, -, rfl⟩ := hquoted
      have hnot : isBlank quote = false := by rcases hquote with rfl | rfl <;> decide
      rw [List.cons_append, List.dropWhile_cons_of_neg (by simp [hnot])]
    rw [List.dropWhile_append_of_pos hblanks, htext, hquoted.captured_or, Option.getD_some]
  | @bare blanks token rest hblanks hne htoken hrest hquoted =>
    have htext : (token ++ rest).dropWhile isBlank = token ++ rest := by
      cases token with
      | nil => exact absurd rfl hne
      | cons c token => rw [List.cons_append, List.dropWhile_cons_of_neg (by simp [htoken c])]
    have htake : rest.takeWhile (fun c => !isBlank c) = [] := by
      cases rest with
      | nil => rfl
      | cons c rest => rw [List.takeWhile_cons_of_neg (by simp [hrest c rfl])]
    rw [List.dropWhile_append_of_pos hblanks, htext, captured_or_none hquoted, Option.getD_none,
      List.takeWhile_append_of_pos (by simpa using htoken), htake, List.append_nil]

theorem firstCommandToken_eq_iff {command token : Str} :
    firstCommandToken command = token ↔ FirstToken command token :=
  ⟨fun h => h ▸ firstToken_firstCommandToken command, FirstToken.eq⟩

/-! ## The error of a path -/

structure Files where
  homePath : Str
  isAbsolutePath : Str → Bool
  found : Str → Bool
  isFile : Str → Bool
  isExecutable : Str → Bool

namespace Files

variable (files : Files)

def expandUserPath (path : Str) : Str :=
  if path = "~".toList then files.homePath
  else if "~/".toList.isPrefixOf path then files.homePath ++ path.drop 1
  else path

def tokenLooksLikePath (token : Str) : Bool :=
  "/".toList.isPrefixOf token || "./".toList.isPrefixOf token || "../".toList.isPrefixOf token ||
    "~/".toList.isPrefixOf token || token.contains '/' || token.contains '\\' || files.isAbsolutePath token

def signerPathError (normalized_path : Str) : String :=
  if normalized_path.isEmpty then ""
  else
    let token := firstCommandToken normalized_path
    if token.isEmpty || !files.tokenLooksLikePath token then ""
    else
      let path := files.expandUserPath token
      if !files.found path then "The configured signer path does not exist."
      else if !files.isFile path then "The configured signer path is not a file."
      else if !files.isExecutable path then "The configured signer path is not executable."
      else ""

/-- A command that names its program by a path names a file that can be executed. -/
def Runs (command : Str) : Prop :=
  ∀ token, FirstToken command token → token ≠ [] → files.tokenLooksLikePath token = true →
    files.found (files.expandUserPath token) = true ∧ files.isFile (files.expandUserPath token) = true ∧
      files.isExecutable (files.expandUserPath token) = true

theorem signerPathError_eq_empty_iff (command : Str) : files.signerPathError command = "" ↔ files.Runs command := by
  have hruns : files.Runs command ↔ firstCommandToken command ≠ [] →
      files.tokenLooksLikePath (firstCommandToken command) = true →
      files.found (files.expandUserPath (firstCommandToken command)) = true ∧
        files.isFile (files.expandUserPath (firstCommandToken command)) = true ∧
          files.isExecutable (files.expandUserPath (firstCommandToken command)) = true := by
    unfold Runs
    simp only [← firstCommandToken_eq_iff, forall_eq']
  rw [hruns]
  unfold signerPathError
  dsimp only
  by_cases hcommand : command = []
  · subst hcommand
    simp [firstCommandToken, captured]
  · by_cases htoken : firstCommandToken command = []
    · simp [htoken]
    · cases hpath : files.tokenLooksLikePath (firstCommandToken command)
      · simp
      · cases hfound : files.found (files.expandUserPath (firstCommandToken command)) <;>
          cases hfile : files.isFile (files.expandUserPath (firstCommandToken command)) <;>
            cases hrun : files.isExecutable (files.expandUserPath (firstCommandToken command)) <;>
              simp [hcommand, htoken]

/-- The command that saves a path makes the same check, and one that does not run leaves the store as it is. -/
theorem signer_refused (api : Settings.CoreApi) (attempt : Attempt) (store : Store) {path : Str}
    (h : ¬ files.Runs path) :
    (Command.signer path).run api { attempt with signerPathError := files.signerPathError } store =
      (store, files.signerPathError path) := by
  have herror : files.signerPathError path ≠ "" := fun herror => h ((files.signerPathError_eq_empty_iff path).1 herror)
  simp only [Command.run]
  rw [if_pos herror]

end Files

/-- `localFile` is the path of a URL that names a local file. -/
def normalizeCommandPath (localFile : Str → Option Str) (path : Str) : Str :=
  let trimmed := Amount.trimmed path
  if trimmed.isEmpty then [] else (localFile trimmed).getD trimmed

/-! ## Checks on their way -/

structure OptionsQmlModel where
  m_stopping : Bool := false
  m_requested_signer_path : Str := []
  m_signer_validation_revision : Nat := 0
  m_signer_validation_pending : Bool := false
  m_signer_validation_in_flight : Bool := false
  m_validated_signer_path : Str := []
  m_signer_validation_error : String := ""

structure Task where
  normalized : Str
  revision : Nat

structure Answer where
  normalized : Str
  revision : Nat
  /-- No value where the check threw. -/
  error : Option String

structure System where
  model : OptionsQmlModel := {}
  tasks : Pipeline Task Answer := {}
  files : Files
  /-- The states of the files since the path that is asked for now was asked for. -/
  seen : List Files
  /-- A check has thrown since then. -/
  threw : Bool := false

inductive Event
  | requestExternalSignerPathValidation (path : Str)
  | filesChange (files : Files)
  /-- The worker makes the oldest check. -/
  | work
  /-- The oldest check throws. -/
  | throw
  /-- The oldest answer is taken. -/
  | complete
  | beginShutdown

def unableToValidate : String := "Unable to validate the signer path."

namespace System

variable (localFile : Str → Option Str) (s : System)

def startSignerValidation : System :=
  { s with
    model := { s.model with m_signer_validation_in_flight := true }
    tasks := s.tasks.submit ⟨s.model.m_requested_signer_path, s.model.m_signer_validation_revision⟩ }

def requestExternalSignerPathValidation (path : Str) : System :=
  if s.model.m_stopping then s
  else
    let s := { s with
      model := { s.model with
        m_requested_signer_path := normalizeCommandPath localFile path
        m_signer_validation_revision := s.model.m_signer_validation_revision + 1
        m_signer_validation_pending := true
        m_signer_validation_error := "" }
      seen := [s.files]
      threw := false }
    if s.model.m_signer_validation_in_flight then s else s.startSignerValidation

def externalSignerPathValidationError (path : Str) : String :=
  if normalizeCommandPath localFile path = s.model.m_validated_signer_path then s.model.m_signer_validation_error
  else ""

/-- The two completions of a check. -/
def completed (answer : Answer) : System :=
  let s := { s with model := { s.model with m_signer_validation_in_flight := false } }
  if answer.revision ≠ s.model.m_signer_validation_revision then s.startSignerValidation
  else
    match answer.error with
    | some error =>
      { s with model := { s.model with
          m_validated_signer_path := answer.normalized
          m_signer_validation_error := error
          m_signer_validation_pending := false } }
    | none =>
      { s with model := { s.model with
          m_signer_validation_error := unableToValidate
          m_signer_validation_pending := false } }

/-- After the executor is shut down no completion comes any more. -/
def beginShutdown : System := { s with model := { s.model with m_stopping := true }, tasks := {} }

def work : System :=
  match s.tasks.waiting with
  | [] => s
  | task :: waiting =>
    { s with tasks := ⟨waiting, s.tasks.returned ++
      [⟨task.normalized, task.revision, some (s.files.signerPathError task.normalized)⟩]⟩ }

def throw : System :=
  match s.tasks.waiting with
  | [] => s
  | task :: waiting =>
    { s with tasks := ⟨waiting, s.tasks.returned ++ [⟨task.normalized, task.revision, none⟩]⟩, threw := true }

def complete : System :=
  match s.tasks.returned with
  | [] => s
  | answer :: returned => { s with tasks := ⟨s.tasks.waiting, returned⟩ }.completed answer

def step : Event → System
  | .requestExternalSignerPathValidation path => s.requestExternalSignerPathValidation localFile path
  | .filesChange files => { s with files, seen := s.seen ++ [files] }
  | .work => s.work
  | .throw => s.throw
  | .complete => s.complete
  | .beginShutdown => s.beginShutdown

def start (files : Files) : System := { files, seen := [files] }

end System

/-! ## What every event keeps -/

/-- What a check of the requested path came back with. -/
def Answered (s : System) : Option String → Prop
  | some error => ∃ files ∈ s.seen, error = files.signerPathError s.model.m_requested_signer_path
  | none => s.threw = true

/-- The page is shown what a check of the requested path found, or that it threw. -/
def Shown (s : System) : Prop :=
  (s.model.m_validated_signer_path = s.model.m_requested_signer_path ∧
    Answered s (some s.model.m_signer_validation_error)) ∨
  (Answered s none ∧ s.model.m_signer_validation_error = unableToValidate)

structure Sound (s : System) : Prop where
  files : s.files ∈ s.seen
  asked : s.model.m_signer_validation_pending = true → s.model.m_signer_validation_revision ≠ 0
  flight : s.model.m_signer_validation_in_flight = s.model.m_signer_validation_pending
  outstanding : s.model.m_stopping = false →
    s.tasks.outstanding = if s.model.m_signer_validation_pending then 1 else 0
  stopped : s.model.m_stopping = true → s.tasks.outstanding = 0
  tasks : ∀ task ∈ s.tasks.waiting, task.revision ≤ s.model.m_signer_validation_revision ∧
    (task.revision = s.model.m_signer_validation_revision → task.normalized = s.model.m_requested_signer_path)
  answers : ∀ answer ∈ s.tasks.returned, answer.revision ≤ s.model.m_signer_validation_revision ∧
    (answer.revision = s.model.m_signer_validation_revision →
      answer.normalized = s.model.m_requested_signer_path ∧ Answered s answer.error)
  quiet : s.model.m_signer_validation_pending = true ∨ s.model.m_signer_validation_revision = 0 →
    s.model.m_signer_validation_error = ""
  shown : s.model.m_signer_validation_pending = false → s.model.m_signer_validation_revision ≠ 0 → Shown s

variable {localFile : Str → Option Str} {s : System}

theorem sound_start (files : Files) : Sound (System.start files) where
  files := List.mem_singleton_self files
  asked h := by simp [System.start] at h
  flight := rfl
  outstanding _ := rfl
  stopped _ := rfl
  tasks := by simp [System.start]
  answers := by simp [System.start]
  quiet _ := rfl
  shown _ h := absurd rfl h

theorem sound_startSignerValidation (hempty : s.tasks.outstanding = 0) (hfiles : s.files ∈ s.seen)
    (hstop : s.model.m_stopping = false) (hpending : s.model.m_signer_validation_pending = true)
    (hasked : s.model.m_signer_validation_revision ≠ 0) (herror : s.model.m_signer_validation_error = "") :
    Sound s.startSignerValidation := by
  obtain ⟨hreturned, hwaiting⟩ := Pipeline.outstanding_eq_zero.1 hempty
  unfold System.startSignerValidation
  constructor
  · exact hfiles
  · exact fun _ => hasked
  · exact hpending.symm
  · intro _
    dsimp only
    rw [Pipeline.outstanding_submit, hempty, hpending]
    rfl
  · intro h
    simp [hstop] at h
  · simp [Pipeline.submit, hwaiting]
  · simp [Pipeline.submit, hreturned]
  · exact fun _ => herror
  · intro h
    simp [hpending] at h

theorem sound_settled (hempty : s.tasks.outstanding = 0) (hfiles : s.files ∈ s.seen)
    (hflight : s.model.m_signer_validation_in_flight = false)
    (hpending : s.model.m_signer_validation_pending = false)
    (hasked : s.model.m_signer_validation_revision ≠ 0) (hshown : Shown s) : Sound s := by
  obtain ⟨hreturned, hwaiting⟩ := Pipeline.outstanding_eq_zero.1 hempty
  constructor
  · exact hfiles
  · exact fun _ => hasked
  · rw [hflight, hpending]
  · intro _
    rw [hempty, hpending]
    rfl
  · exact fun _ => hempty
  · simp [hwaiting]
  · simp [hreturned]
  · simp [hpending, hasked]
  · exact fun _ _ => hshown

theorem sound_request (h : Sound s) (path : Str) : Sound (s.requestExternalSignerPathValidation localFile path) := by
  unfold System.requestExternalSignerPathValidation
  split
  · exact h
  rename_i hstop
  rw [Bool.not_eq_true] at hstop
  dsimp only
  split
  · -- the check that is on its way is one of an earlier request
    rename_i hflight
    have hpending := h.flight.symm.trans hflight
    constructor
    · exact List.mem_singleton_self _
    · exact fun _ => Nat.succ_ne_zero _
    · exact hflight
    · intro _
      rw [h.outstanding hstop, hpending]
    · intro hstopping
      exact h.stopped hstopping
    · intro task htask
      have hle := (h.tasks task htask).1
      dsimp only
      exact ⟨by omega, fun heq => by omega⟩
    · intro answer hanswer
      have hle := (h.answers answer hanswer).1
      dsimp only
      exact ⟨by omega, fun heq => by omega⟩
    · exact fun _ => rfl
    · intro hnot
      simp at hnot
  · rename_i hflight
    have hpending : s.model.m_signer_validation_pending = false := by
      rw [← h.flight]
      simpa using hflight
    apply sound_startSignerValidation
    · rw [h.outstanding hstop, hpending]
      rfl
    · exact List.mem_singleton_self _
    · exact hstop
    · rfl
    · exact Nat.succ_ne_zero _
    · rfl

theorem Answered.change {error : Option String} (h : Answered s error) (files : Files) :
    Answered { s with files, seen := s.seen ++ [files] } error := by
  cases error with
  | none => exact h
  | some error =>
    obtain ⟨seen, hseen, herror⟩ := h
    exact ⟨seen, List.mem_append_left _ hseen, herror⟩

theorem sound_filesChange (h : Sound s) (files : Files) : Sound { s with files, seen := s.seen ++ [files] } where
  files := List.mem_append_right _ (List.mem_singleton_self files)
  asked := h.asked
  flight := h.flight
  outstanding := h.outstanding
  stopped := h.stopped
  tasks := h.tasks
  answers answer hanswer := by
    obtain ⟨hle, hright⟩ := h.answers answer hanswer
    exact ⟨hle, fun heq => ⟨(hright heq).1, (hright heq).2.change files⟩⟩
  quiet := h.quiet
  shown hpending hrequested := by
    rcases h.shown hpending hrequested with ⟨hpath, herror⟩ | ⟨hthrew, herror⟩
    · exact .inl ⟨hpath, herror.change files⟩
    · exact .inr ⟨hthrew.change files, herror⟩

theorem Answered.threw {error : Option String} (h : Answered s error) (tasks : Pipeline Task Answer) {threw : Bool}
    (hthrew : s.threw = true → threw = true) : Answered { s with tasks, threw } error := by
  cases error with
  | none => exact hthrew h
  | some error => exact h

theorem sound_checked (h : Sound s) {task : Task} {waiting : List Task} (hwaiting : s.tasks.waiting = task :: waiting)
    {error : Option String} {threw : Bool} (hthrew : s.threw = true → threw = true)
    (herror : task.normalized = s.model.m_requested_signer_path → Answered { s with threw } error) :
    Sound { s with
      tasks := ⟨waiting, s.tasks.returned ++ [⟨task.normalized, task.revision, error⟩]⟩
      threw } := by
  have hout := Pipeline.outstanding_run hwaiting (⟨task.normalized, task.revision, error⟩ : Answer)
  obtain ⟨hle, hright⟩ := h.tasks task (hwaiting ▸ List.mem_cons_self)
  constructor
  · exact h.files
  · exact h.asked
  · exact h.flight
  · exact fun hstop => hout.trans (h.outstanding hstop)
  · exact fun hstop => hout.trans (h.stopped hstop)
  · exact fun other hother => h.tasks other (hwaiting ▸ List.mem_cons_of_mem _ hother)
  · intro answer hanswer
    rcases List.mem_append.1 hanswer with hanswer | hanswer
    · obtain ⟨hle', hright'⟩ := h.answers answer hanswer
      exact ⟨hle', fun heq => ⟨(hright' heq).1, (hright' heq).2.threw _ hthrew⟩⟩
    · rw [List.mem_singleton] at hanswer
      subst hanswer
      exact ⟨hle, fun heq => ⟨hright heq, (herror (hright heq)).threw _ id⟩⟩
  · exact h.quiet
  · intro hpending hrequested
    rcases h.shown hpending hrequested with ⟨hpath, herror⟩ | ⟨hnone, herror⟩
    · exact .inl ⟨hpath, herror.threw _ hthrew⟩
    · exact .inr ⟨hnone.threw _ hthrew, herror⟩

theorem sound_work (h : Sound s) : Sound s.work := by
  unfold System.work
  split
  · exact h
  rename_i task waiting hwaiting
  refine sound_checked h hwaiting id fun hnormalized => ⟨s.files, h.files, ?_⟩
  rw [hnormalized]

theorem sound_throw (h : Sound s) : Sound s.throw := by
  unfold System.throw
  split
  · exact h
  rename_i task waiting hwaiting
  exact sound_checked h hwaiting (fun _ => rfl) fun _ => rfl

theorem sound_complete (h : Sound s) : Sound s.complete := by
  unfold System.complete
  split
  · exact h
  rename_i answer returned hreturned
  have hout := Pipeline.outstanding_deliver hreturned
  have hstop : s.model.m_stopping = false := by
    by_contra hstop
    have := h.stopped (by simpa using hstop)
    omega
  -- this was the only one, so that nothing is left on the way
  have hpending : s.model.m_signer_validation_pending = true := by
    by_contra hpending
    have := h.outstanding hstop
    simp only [hpending, if_false] at this
    omega
  have hempty : (⟨s.tasks.waiting, returned⟩ : Pipeline Task Answer).outstanding = 0 := by
    have := h.outstanding hstop
    simp only [hpending, if_true] at this
    omega
  obtain ⟨hle, hright⟩ := h.answers answer (hreturned ▸ List.mem_cons_self)
  unfold System.completed
  dsimp only
  split
  · exact sound_startSignerValidation hempty h.files hstop hpending (h.asked hpending)
      (h.quiet (.inl hpending))
  · rename_i hcurrent
    obtain ⟨hpath, hanswered⟩ := hright (not_not.1 hcurrent)
    cases herror : answer.error with
    | none =>
      rw [herror] at hanswered
      exact sound_settled hempty h.files rfl rfl (h.asked hpending) (.inr ⟨hanswered, rfl⟩)
    | some error =>
      rw [herror] at hanswered
      exact sound_settled hempty h.files rfl rfl (h.asked hpending) (.inl ⟨hpath, hanswered⟩)

theorem sound_beginShutdown (h : Sound s) : Sound s.beginShutdown where
  files := h.files
  asked := h.asked
  flight := h.flight
  outstanding hstop := by simp [System.beginShutdown] at hstop
  stopped _ := rfl
  tasks := by simp [System.beginShutdown]
  answers := by simp [System.beginShutdown]
  quiet := h.quiet
  shown := h.shown

theorem sound_step (h : Sound s) (e : Event) : Sound (s.step localFile e) := by
  cases e with
  | requestExternalSignerPathValidation path => exact sound_request h path
  | filesChange files => exact sound_filesChange h files
  | work => exact sound_work h
  | throw => exact sound_throw h
  | complete => exact sound_complete h
  | beginShutdown => exact sound_beginShutdown h

/-! ## Answers come -/

/-- A check of what is requested is the only one on its way. -/
theorem complete_work_current (hreturned : s.tasks.returned = [])
    (hwaiting : s.tasks.waiting = [⟨s.model.m_requested_signer_path, s.model.m_signer_validation_revision⟩]) :
    s.work.complete.model.m_signer_validation_pending = false := by
  unfold System.work
  rw [hwaiting]
  dsimp only
  unfold System.complete
  rw [hreturned]
  dsimp only [List.nil_append]
  unfold System.completed
  simp

theorem complete_work_idle (hempty : s.tasks.outstanding = 0) : s.work.complete = s := by
  obtain ⟨hreturned, hwaiting⟩ := Pipeline.outstanding_eq_zero.1 hempty
  have hwork : s.work = s := by
    unfold System.work
    rw [hwaiting]
  rw [hwork]
  unfold System.complete
  rw [hreturned]

theorem work_one (h : s.tasks.outstanding = 1) :
    s.work.tasks.waiting = [] ∧ ∃ answer, s.work.tasks.returned = [answer] := by
  unfold Pipeline.outstanding at h
  unfold System.work
  split
  · rename_i hwaiting
    rw [hwaiting, List.length_nil] at h
    exact ⟨hwaiting, List.length_eq_one_iff.1 h⟩
  · rename_i task waiting hwaiting
    rw [hwaiting, List.length_cons] at h
    have hreturned : s.tasks.returned = [] := List.length_eq_zero_iff.1 (by omega)
    have hrest : waiting = [] := List.length_eq_zero_iff.1 (by omega)
    exact ⟨hrest, _, by rw [hreturned]; rfl⟩

theorem complete_one {answer : Answer} (hwaiting : s.tasks.waiting = []) (hreturned : s.tasks.returned = [answer]) :
    s.complete.model.m_signer_validation_pending = false ∧ s.complete.tasks.outstanding = 0 ∨
    s.complete.tasks.returned = [] ∧ s.complete.tasks.waiting =
      [⟨s.complete.model.m_requested_signer_path, s.complete.model.m_signer_validation_revision⟩] := by
  unfold System.complete
  rw [hreturned]
  dsimp only
  unfold System.completed
  dsimp only
  split
  · right
    simp [System.startSignerValidation, Pipeline.submit, hwaiting]
  · left
    cases answer.error <;> simp [Pipeline.outstanding, hwaiting]

/-- Two checks at most come before the page has its answer, where nothing else is asked for. -/
theorem pending_ends (h : Sound s) (hstop : s.model.m_stopping = false) :
    s.work.complete.work.complete.model.m_signer_validation_pending = false := by
  have hout := h.outstanding hstop
  cases hpending : s.model.m_signer_validation_pending with
  | false =>
    rw [hpending] at hout
    rw [complete_work_idle hout, complete_work_idle hout, hpending]
  | true =>
    rw [hpending] at hout
    obtain ⟨hwaiting, answer, hreturned⟩ := work_one hout
    rcases complete_one hwaiting hreturned with ⟨hsettled, hempty⟩ | ⟨hreturned, hwaiting⟩
    · rw [complete_work_idle hempty, hsettled]
    · exact complete_work_current hreturned hwaiting

/-! ## What the page shows -/

theorem unableToValidate_ne : unableToValidate ≠ "" := by decide

theorem Shown.runs (h : Shown s) (hempty : s.model.m_signer_validation_error = "") :
    ∃ files ∈ s.seen, files.Runs s.model.m_requested_signer_path := by
  rcases h with ⟨-, files, hseen, herror⟩ | ⟨-, herror⟩
  · exact ⟨files, hseen, (files.signerPathError_eq_empty_iff _).1 (herror.symm.trans hempty)⟩
  · exact absurd (herror.symm.trans hempty) unableToValidate_ne

/-- In every run a page that is told of no error and of no check under way has a signer path whose program could be
run at some moment since the path was entered. It is told of an error only of that path, as a check found it since
then or because one threw, and an answer comes after two checks at most, unless the application shuts down. -/
theorem signer_run {files : Files}
    (h : Reach.Reaches (System.step localFile) (fun _ _ => True) (System.start files) s) :
    (s.model.m_signer_validation_pending = false → s.model.m_signer_validation_revision ≠ 0 →
      Shown s ∧ (s.model.m_signer_validation_error = "" →
        ∃ files ∈ s.seen, files.Runs s.model.m_requested_signer_path)) ∧
    (s.model.m_signer_validation_pending = true → s.model.m_signer_validation_error = "") ∧
    (∀ path, s.externalSignerPathValidationError localFile path ≠ "" →
      normalizeCommandPath localFile path = s.model.m_requested_signer_path ∨ s.threw = true) ∧
    (s.model.m_stopping = false → s.tasks.outstanding ≤ 1 ∧
      s.work.complete.work.complete.model.m_signer_validation_pending = false) := by
  have hsound : Sound s := h.invariant (sound_start files) fun s e hs _ => sound_step hs e
  refine ⟨fun hpending hasked => ?_, fun hpending => hsound.quiet (.inl hpending), fun path herror => ?_,
    fun hstop => ⟨?_, pending_ends hsound hstop⟩⟩
  · have hshown := hsound.shown hpending hasked
    exact ⟨hshown, hshown.runs⟩
  · unfold System.externalSignerPathValidationError at herror
    split at herror
    · rename_i hvalidated
      have hpending : s.model.m_signer_validation_pending = false := by
        by_contra hpending
        exact herror (hsound.quiet (.inl (by simpa using hpending)))
      have hasked : s.model.m_signer_validation_revision ≠ 0 := fun hasked => herror (hsound.quiet (.inr hasked))
      rcases hsound.shown hpending hasked with ⟨hpath, -⟩ | ⟨hthrew, -⟩
      · exact .inl (hvalidated.trans hpath)
      · exact .inr hthrew
    · exact absurd rfl herror
  · rw [hsound.outstanding hstop]
    split <;> omega

/-- No file is there. -/
def noFiles : Files := ⟨"/home".toList, fun _ => false, fun _ => false, fun _ => false, fun _ => false⟩

def missingSigner : Event := .requestExternalSignerPathValidation "/usr/bin/hwi --stdin".toList

theorem signer_run_missing :
    (((System.start noFiles).step (fun _ => none) missingSigner).work.complete.work.complete
      ).model.m_signer_validation_pending = false :=
  ((signer_run (Reach.Reaches.snoc .refl missingSigner trivial)).2.2.2 rfl).2

end GuiQml.Options.Signer
