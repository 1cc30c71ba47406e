import GuiQml.Wallet.Transaction
import Mathlib.Data.List.Nodup
import Mathlib.Data.List.Forall2
import Mathlib.Logic.Equiv.Basic

/-!
# The captured recipients

`captureReviewedRecipients` takes for each row the first free output that pays exactly what the row asks,
or else the first free one of the row's script. The greedy choice succeeds whenever any choice does, and it
is exact whenever any choice is.
-/

namespace GuiQml.Wallet

open WalletQmlModelTransaction

/-! ## Pairings of rows with outputs -/

def scriptOf (api : AddressApi) (row : SendRecipient) : Option Script :=
  (api.decodeDestination row.address).map api.scriptForDestination

/-- The output at `i` has the script of the row. -/
def PaysRow (api : AddressApi) (vout : List TxOut) (row : SendRecipient) (i : Nat) : Prop :=
  ∃ out, vout[i]? = some out ∧ scriptOf api row = some out.scriptPubKey

/-- It also has the amount the row asks for. -/
def PaysRowExactly (api : AddressApi) (vout : List TxOut) (row : SendRecipient) (i : Nat) : Prop :=
  ∃ out, vout[i]? = some out ∧ scriptOf api row = some out.scriptPubKey ∧ out.nValue = row.cAmount

/-- Each row has an output of its own, the one that `taken` has at its place. -/
structure Pairing (pays : SendRecipient → Nat → Prop) (rows : List SendRecipient) (taken : List Nat) :
    Prop where
  pays : List.Forall₂ pays rows taken
  distinct : taken.Nodup

/-- For each script there are at least as many outputs as rows. -/
def EnoughOutputs (api : AddressApi) (vout : List TxOut) (rows : List SendRecipient) : Prop :=
  ∀ script, rows.countP (fun row => scriptOf api row = some script) ≤
    vout.countP (fun out => out.scriptPubKey = script)

/-- A row as it is shown with the output at `i`. -/
def shownWith (vout : List TxOut) (row : SendRecipient) (i : Nat) : ReviewedRecipient :=
  ⟨row.address, row.label, (vout[i]?.map (·.nValue)).getD 0, row.hasPaymentRequest⟩

/-! ## One row -/

section Matched

variable {api : AddressApi} {script : Script} {amount : CAmount} {vout : List TxOut}
  {rows : List SendRecipient} {used : List Bool} {i : Nat}

/-- An output with the script that no row has taken. -/
def Free (script : Script) (p : TxOut × Bool) : Bool := !p.2 && p.1.scriptPubKey = script

theorem matchOutput_isSome {l : List ((TxOut × Bool) × Nat)} {found : Option Nat}
    (h : found.isSome = true ∨ ∃ entry ∈ l, Free script entry.1 = true) :
    (matchOutput script amount l found).isSome = true := by
  induction l generalizing found with
  | nil => simpa [matchOutput] using h
  | cons entry rest ih =>
    obtain ⟨⟨out, used⟩, i⟩ := entry
    unfold matchOutput
    split_ifs with hskip
    · apply ih
      rcases h with h | ⟨entry, hentry, hfree⟩
      · exact .inl h
      · rcases List.mem_cons.mp hentry with rfl | hmem
        · simp_all [Free]
        · exact .inr ⟨entry, hmem, hfree⟩
    · rfl
    · exact ih (.inl (by cases found <;> rfl))

theorem matchOutput_free {l : List ((TxOut × Bool) × Nat)} {found : Option Nat}
    (h : matchOutput script amount l found = some i) :
    found = some i ∨ ∃ p, (p, i) ∈ l ∧ Free script p = true := by
  induction l generalizing found with
  | nil => exact .inl h
  | cons entry rest ih =>
    obtain ⟨⟨out, used⟩, j⟩ := entry
    unfold matchOutput at h
    split_ifs at h with hskip hamount
    · rcases ih h with hfound | ⟨p, hp, hfree⟩
      · exact .inl hfound
      · exact .inr ⟨p, List.mem_cons_of_mem _ hp, hfree⟩
    · obtain rfl := Option.some.inj h
      exact .inr ⟨_, List.mem_cons_self, by simp_all [Free]⟩
    · rcases ih h with hfound | ⟨p, hp, hfree⟩
      · cases found with
        | some k => exact .inl hfound
        | none =>
          obtain rfl := Option.some.inj hfound
          exact .inr ⟨_, List.mem_cons_self, by simp_all [Free]⟩
      · exact .inr ⟨p, List.mem_cons_of_mem _ hp, hfree⟩

theorem matchOutput_exact {l : List ((TxOut × Bool) × Nat)} {found : Option Nat}
    (h : ∃ entry ∈ l, Free script entry.1 = true ∧ entry.1.1.nValue = amount) :
    ∃ p j, (p, j) ∈ l ∧ Free script p = true ∧ p.1.nValue = amount ∧
      matchOutput script amount l found = some j := by
  induction l generalizing found with
  | nil => simp at h
  | cons entry rest ih =>
    obtain ⟨⟨out, used⟩, j⟩ := entry
    have hlater : ∀ found', ¬(Free script (out, used) = true ∧ out.nValue = amount) →
        ∃ p k, (p, k) ∈ ((out, used), j) :: rest ∧ Free script p = true ∧ p.1.nValue = amount ∧
          matchOutput script amount rest found' = some k := by
      intro found' hnot
      obtain ⟨entry, hentry, hfree, hvalue⟩ := h
      rcases List.mem_cons.mp hentry with rfl | hmem
      · exact absurd ⟨hfree, hvalue⟩ hnot
      · obtain ⟨p, k, hp, hrest⟩ := ih ⟨entry, hmem, hfree, hvalue⟩
        exact ⟨p, k, List.mem_cons_of_mem _ hp, hrest⟩
    unfold matchOutput
    split_ifs with hskip hamount
    · apply hlater
      rintro ⟨hfree, -⟩
      simp_all [Free]
    · exact ⟨_, j, List.mem_cons_self, by simp_all [Free], hamount, rfl⟩
    · exact hlater _ (by simp_all)

theorem free_zip {p : TxOut × Bool} (hp : (vout.zip used)[i]? = some p) (hfree : Free script p = true) :
    vout[i]? = some p.1 ∧ used[i]? = some false ∧ p.1.scriptPubKey = script := by
  obtain ⟨out, taken⟩ := p
  obtain ⟨hout, hused⟩ := List.getElem?_zip_eq_some.mp hp
  simp only [Free, Bool.and_eq_true, Bool.not_eq_true', decide_eq_true_eq] at hfree
  exact ⟨hout, hfree.1 ▸ hused, hfree.2⟩

theorem matchOutput_some (h : matchOutput script amount (vout.zip used).zipIdx none = some i) :
    ∃ out, vout[i]? = some out ∧ used[i]? = some false ∧ out.scriptPubKey = script := by
  obtain ⟨p, hmem, hfree⟩ := (matchOutput_free h).resolve_left (by simp)
  have hfacts := free_zip (List.mem_zipIdx_iff_getElem?.mp hmem) hfree
  exact ⟨p.1, hfacts⟩

theorem matchOutput_some_exact {out : TxOut} {j : Nat} (hout : vout[j]? = some out)
    (hused : used[j]? = some false) (hscript : out.scriptPubKey = script) (hvalue : out.nValue = amount) :
    ∃ i found, matchOutput script amount (vout.zip used).zipIdx none = some i ∧ vout[i]? = some found ∧
      used[i]? = some false ∧ found.scriptPubKey = script ∧ found.nValue = amount := by
  have hmem : ((out, false), j) ∈ (vout.zip used).zipIdx := by
    rw [List.mem_zipIdx_iff_getElem?]
    exact List.getElem?_zip_eq_some.mpr ⟨hout, hused⟩
  have hfree : Free script (out, false) = true := by simp [Free, hscript]
  obtain ⟨p, i, hp, hfree, hamount, hfound⟩ := matchOutput_exact ⟨_, hmem, hfree, hvalue⟩
  obtain ⟨hout', hused', hscript'⟩ := free_zip (List.mem_zipIdx_iff_getElem?.mp hp) hfree
  exact ⟨i, p.1, hfound, hout', hused', hscript', hamount⟩

/-! ## All rows -/

theorem matchRecipients_cons {row : SendRecipient} {snapshot : List ReviewedRecipient} :
    matchRecipients api vout (row :: rows) used = some snapshot ↔
      ∃ script i rest, scriptOf api row = some script ∧
        matchOutput script row.cAmount (vout.zip used).zipIdx none = some i ∧
        matchRecipients api vout rows (used.set i true) = some rest ∧
        snapshot = shownWith vout row i :: rest := by
  simp only [matchRecipients, Option.bind_eq_bind, Option.bind_eq_some_iff, Option.some.injEq, scriptOf,
    Option.map_eq_some_iff]
  constructor
  · rintro ⟨destination, hdest, i, hi, out, hout, rest, hrest, rfl⟩
    exact ⟨_, i, rest, ⟨destination, hdest, rfl⟩, hi, hrest, by simp [shownWith, hout]⟩
  · rintro ⟨_, i, rest, ⟨destination, hdest, rfl⟩, hi, hrest, rfl⟩
    obtain ⟨out, hout, -, -⟩ := matchOutput_some hi
    exact ⟨destination, hdest, i, hi, out, hout, rest, hrest, by simp [shownWith, hout]⟩

theorem countP_free_set (script : Script) {out : TxOut} (hi : (vout.zip used)[i]? = some (out, false)) :
    (vout.zip (used.set i true)).countP (Free script) +
      (if out.scriptPubKey = script then 1 else 0) = (vout.zip used).countP (Free script) := by
  induction vout generalizing used i with
  | nil => simp at hi
  | cons first rest ih =>
    cases used with
    | nil => simp at hi
    | cons u us =>
      cases i with
      | zero =>
        obtain ⟨rfl, rfl⟩ : first = out ∧ u = false := by simpa using hi
        simp only [List.set_cons_zero, List.zip_cons_cons, List.countP_cons, Free]
        simp
      | succ i =>
        have := @ih us i (by simpa using hi)
        simp only [List.set_cons_succ, List.zip_cons_cons, List.countP_cons]
        omega

theorem countP_free_none (script : Script) (vout : List TxOut) :
    (vout.zip (List.replicate vout.length false)).countP (Free script) =
      vout.countP (fun out => out.scriptPubKey = script) := by
  induction vout with
  | nil => rfl
  | cons out rest ih =>
    simp only [List.length_cons, List.replicate_succ, List.zip_cons_cons, List.countP_cons, ih, Free]
    simp

/-- Rows are matched exactly while there are free outputs for all that are left. -/
theorem matchRecipients_isSome_iff (hdecode : ∀ row ∈ rows, (scriptOf api row).isSome = true) :
    (matchRecipients api vout rows used).isSome = true ↔
      ∀ script, rows.countP (fun row => scriptOf api row = some script) ≤
        (vout.zip used).countP (Free script) := by
  induction rows generalizing used with
  | nil => simp [matchRecipients]
  | cons row rest ih =>
    simp only [List.mem_cons, forall_eq_or_imp] at hdecode
    obtain ⟨script, hscript⟩ := Option.isSome_iff_exists.mp hdecode.1
    -- One output is taken, and the counts of the row and of the output go down together.
    have hcounts : ∀ {i out}, vout[i]? = some out → used[i]? = some false → out.scriptPubKey = script →
        ((∀ other, (row :: rest).countP (fun row => scriptOf api row = some other) ≤
            (vout.zip used).countP (Free other)) ↔
          ∀ other, rest.countP (fun row => scriptOf api row = some other) ≤
            (vout.zip (used.set i true)).countP (Free other)) := by
      intro i out hout hused hpays
      apply forall_congr'
      intro other
      have hset := countP_free_set other (List.getElem?_zip_eq_some.mpr ⟨hout, hused⟩)
      rw [List.countP_cons, hscript]
      rw [hpays] at hset
      by_cases h : script = other <;> simp [h] at hset ⊢ <;> omega
    constructor
    · intro hsome
      obtain ⟨snapshot, hsnapshot⟩ := Option.isSome_iff_exists.mp hsome
      obtain ⟨script', i, tail, hscript', hi, htail, -⟩ := matchRecipients_cons.mp hsnapshot
      obtain rfl : script = script' := Option.some.inj (hscript.symm.trans hscript')
      obtain ⟨out, hout, hused, hpays⟩ := matchOutput_some hi
      rw [hcounts hout hused hpays, ← ih hdecode.2, htail]
      rfl
    · intro henough
      have hpos : 0 < (vout.zip used).countP (Free script) := by
        have := henough script
        rw [List.countP_cons] at this
        simp [hscript] at this
        omega
      obtain ⟨p, hp, hfree⟩ := List.countP_pos_iff.mp hpos
      obtain ⟨j, hj⟩ := List.mem_iff_getElem?.mp hp
      obtain ⟨i, hi⟩ := Option.isSome_iff_exists.mp (matchOutput_isSome
        (.inr ⟨(p, j), List.mem_zipIdx_iff_getElem?.mpr hj, hfree⟩))
      obtain ⟨out, hout, hused, hpays⟩ := matchOutput_some hi
      obtain ⟨tail, htail⟩ := Option.isSome_iff_exists.mp
        ((ih hdecode.2).mpr ((hcounts hout hused hpays).mp henough))
      exact Option.isSome_iff_exists.mpr ⟨_, matchRecipients_cons.mpr ⟨script, i, tail, hscript, hi, htail, rfl⟩⟩

theorem matchRecipients_isSome_of_unused (hdecode : ∀ row ∈ rows, (scriptOf api row).isSome = true) :
    (matchRecipients api vout rows (List.replicate vout.length false)).isSome = true ↔
      EnoughOutputs api vout rows := by
  rw [matchRecipients_isSome_iff hdecode]
  simp only [countP_free_none, EnoughOutputs]

theorem matchRecipients_pairing {snapshot : List ReviewedRecipient}
    (h : matchRecipients api vout rows used = some snapshot) :
    ∃ taken, Pairing (PaysRow api vout) rows taken ∧ (∀ i ∈ taken, used[i]? = some false) ∧
      snapshot = List.zipWith (shownWith vout) rows taken := by
  induction rows generalizing used snapshot with
  | nil =>
    obtain rfl : [] = snapshot := by simpa [matchRecipients] using h
    exact ⟨[], ⟨.nil, List.nodup_nil⟩, by simp, rfl⟩
  | cons row rest ih =>
    obtain ⟨script, i, tail, hscript, hi, htail, rfl⟩ := matchRecipients_cons.mp h
    obtain ⟨out, hout, hused, hpays⟩ := matchOutput_some hi
    obtain ⟨taken, hpairing, hfree, rfl⟩ := ih htail
    have hnot : i ∉ taken := by
      intro hmem
      have := hfree i hmem
      rw [List.getElem?_set_self (List.getElem?_eq_some_iff.mp hused).1] at this
      cases this
    have hrow : PaysRow api vout row i := ⟨out, hout, hpays ▸ hscript⟩
    refine ⟨i :: taken, ⟨.cons hrow hpairing.pays, List.nodup_cons.mpr ⟨hnot, hpairing.distinct⟩⟩, ?_, rfl⟩
    intro j hj
    rcases List.mem_cons.mp hj with rfl | hj
    · exact hused
    · have hne : i ≠ j := fun heq => hnot (heq ▸ hj)
      simpa [List.getElem?_set_ne hne] using hfree j hj

theorem PaysRowExactly.swap {row : SendRecipient} {e j : Nat} {out : TxOut} (hi : vout[i]? = some out)
    (he : ∃ other, vout[e]? = some other ∧ other.scriptPubKey = out.scriptPubKey ∧
      other.nValue = out.nValue) (h : PaysRowExactly api vout row j) :
    PaysRowExactly api vout row (Equiv.swap i e j) := by
  obtain ⟨other, hother, hsame, hvalue⟩ := he
  obtain ⟨paid, hpaid, hscript, hamount⟩ := h
  rcases eq_or_ne j i with rfl | hji
  · obtain rfl : out = paid := Option.some.inj (hi.symm.trans hpaid)
    rw [Equiv.swap_apply_left]
    exact ⟨other, hother, hsame ▸ hscript, hvalue.trans hamount⟩
  rcases eq_or_ne j e with rfl | hje
  · obtain rfl : other = paid := Option.some.inj (hother.symm.trans hpaid)
    rw [Equiv.swap_apply_right]
    exact ⟨out, hi, hsame ▸ hscript, hvalue ▸ hamount⟩
  · rw [Equiv.swap_apply_of_ne_of_ne hji hje]
    exact ⟨paid, hpaid, hscript, hamount⟩

/-- Where any choice among the free outputs is exact, so is the greedy one: the output that it takes
changes places with the one that the exact choice had for the row. -/
theorem matchRecipients_exact {snapshot : List ReviewedRecipient} {exact : List Nat}
    (h : matchRecipients api vout rows used = some snapshot)
    (hexact : Pairing (PaysRowExactly api vout) rows exact)
    (hfree : ∀ i ∈ exact, used[i]? = some false) :
    snapshot.map (·.amount) = rows.map (·.cAmount) := by
  induction rows generalizing used snapshot exact with
  | nil =>
    obtain rfl : [] = snapshot := by simpa [matchRecipients] using h
    rfl
  | cons row rest ih =>
    obtain ⟨script, i, tail, hscript, hi, htail, rfl⟩ := matchRecipients_cons.mp h
    obtain ⟨hpays, hdistinct⟩ := hexact
    cases hpays with
    | @cons _ e _ es hrow hrest =>
      obtain ⟨out, hout, hpaid, hamount⟩ := hrow
      obtain rfl : script = out.scriptPubKey := Option.some.inj (hscript.symm.trans hpaid)
      obtain ⟨henew, hesnodup⟩ := List.nodup_cons.mp hdistinct
      have heused := hfree e List.mem_cons_self
      obtain ⟨i', found, hi', hfound, hfoundused, hfoundscript, hfoundvalue⟩ :=
        matchOutput_some_exact hout heused rfl hamount
      obtain rfl : i = i' := Option.some.inj (hi.symm.trans hi')
      have hswap : Pairing (PaysRowExactly api vout) rest (es.map (Equiv.swap i e)) := by
        refine ⟨?_, hesnodup.map (Equiv.injective _)⟩
        rw [List.forall₂_map_right_iff]
        exact hrest.imp fun _ _ => PaysRowExactly.swap hfound
          ⟨out, hout, hfoundscript.symm, hamount.trans hfoundvalue.symm⟩
      have hstill : ∀ j ∈ es.map (Equiv.swap i e), (used.set i true)[j]? = some false := by
        intro j hj
        obtain ⟨k, hk, rfl⟩ := List.mem_map.mp hj
        have hke : k ≠ e := fun heq => henew (heq ▸ hk)
        rcases eq_or_ne k i with rfl | hki
        · rw [Equiv.swap_apply_left, List.getElem?_set_ne hke]
          exact heused
        · rw [Equiv.swap_apply_of_ne_of_ne hki hke, List.getElem?_set_ne hki.symm]
          exact hfree k (List.mem_cons_of_mem _ hk)
      rw [List.map_cons, List.map_cons, ih htail hswap hstill]
      simp [shownWith, hfound, hfoundvalue]

end Matched

/-! ## The capture -/

namespace WalletQmlModelTransaction

variable (api : AddressApi) (t : WalletQmlModelTransaction) (recipients : List SendRecipient)

/-- The transaction after the call. -/
def afterCapture : WalletQmlModelTransaction := (captureReviewedRecipients api t recipients).getD t

variable {api t recipients}

theorem captureReviewedRecipients_eq {tx : Transaction} (htx : t.m_wtx = some tx) :
    captureReviewedRecipients api t recipients =
      (matchRecipients api tx.vout recipients (List.replicate tx.vout.length false)).map fun snapshot =>
        { t with m_reviewed_recipients := snapshot } := by
  simp only [captureReviewedRecipients, htx, Option.bind_eq_bind, Option.bind_some]
  cases matchRecipients api tx.vout recipients (List.replicate tx.vout.length false) <;> rfl

/-- The capture of valid recipients succeeds exactly where each script has as many outputs as recipients.
It shows each recipient with an output of its own, and with the requested amounts wherever some choice of
outputs has those. A capture that fails changes nothing. -/
theorem captureReviewedRecipients_spec {tx : Transaction} (htx : t.m_wtx = some tx)
    (hvalid : ∀ recipient ∈ recipients, (api.decodeDestination recipient.address).isSome = true) :
    ((captureReviewedRecipients api t recipients).isSome = true ↔ EnoughOutputs api tx.vout recipients) ∧
    ((captureReviewedRecipients api t recipients).isSome = true →
      (∃ taken, Pairing (PaysRow api tx.vout) recipients taken ∧
        (afterCapture api t recipients).m_reviewed_recipients =
          List.zipWith (shownWith tx.vout) recipients taken) ∧
      ((∃ exact, Pairing (PaysRowExactly api tx.vout) recipients exact) →
        (afterCapture api t recipients).m_reviewed_recipients.map (·.amount) =
          recipients.map (·.cAmount))) ∧
    ((captureReviewedRecipients api t recipients).isSome = false →
      (afterCapture api t recipients).m_reviewed_recipients = t.m_reviewed_recipients) := by
  have hdecode : ∀ recipient ∈ recipients, (scriptOf api recipient).isSome = true := by
    intro recipient hmem
    simpa [scriptOf] using hvalid recipient hmem
  have hunused : ∀ {exact : List Nat}, Pairing (PaysRowExactly api tx.vout) recipients exact →
      ∀ i ∈ exact, (List.replicate tx.vout.length false)[i]? = some false := by
    intro exact hexact i hi
    obtain ⟨k, hk, rfl⟩ := List.mem_iff_getElem.mp hi
    have hrow := hexact.pays.length_eq ▸ hk
    obtain ⟨out, hout, -⟩ := hexact.pays.get hrow hk
    exact List.getElem?_replicate_of_lt (List.getElem?_eq_some_iff.mp hout).1
  rw [afterCapture, captureReviewedRecipients_eq htx, Option.isSome_map,
    matchRecipients_isSome_of_unused hdecode]
  refine ⟨Iff.rfl, fun henough => ?_, fun hnone => ?_⟩
  · obtain ⟨snapshot, hsnapshot⟩ := Option.isSome_iff_exists.mp
      ((matchRecipients_isSome_of_unused hdecode).mpr henough)
    simp only [hsnapshot, Option.map_some, Option.getD_some]
    constructor
    · obtain ⟨taken, hpairing, -, heq⟩ := matchRecipients_pairing hsnapshot
      exact ⟨taken, hpairing, heq⟩
    · rintro ⟨exact, hexact⟩
      exact matchRecipients_exact hsnapshot hexact (hunused hexact)
  · rw [Option.isSome_eq_false_iff, Option.isNone_iff_eq_none] at hnone
    rw [hnone]
    rfl

end WalletQmlModelTransaction

/-! ## Two rows of one script -/

namespace TwoOutputs

def addressApi : AddressApi where
  decodeDestination := some
  encodeDestination := id
  scriptForDestination _ := [81]
  extractDestination _ := none
  isUnspendable _ := false
  trimmed := id

def tx : Transaction := ⟨2, [], [⟨300, [81]⟩, ⟨200, [81]⟩, ⟨100, [81]⟩], 0⟩

def row (amount : CAmount) : SendRecipient := ⟨"receiver", "", "", amount, true, false⟩

def draft : WalletQmlModelTransaction := { m_recipient_labels := [], m_amount := 300, m_wtx := some tx }

/-- The row of 100 passes the outputs that the row of 200 needs. -/
theorem captureReviewedRecipients_two_rows :
    (captureReviewedRecipients addressApi draft [row 100, row 200]).isSome = true ∧
    (afterCapture addressApi draft [row 100, row 200]).m_reviewed_recipients.map (·.amount) = [100, 200] ∧
    (afterCapture addressApi draft [row 1, row 1, row 1, row 1]).m_reviewed_recipients = [] := by
  have hdraft : draft.m_wtx = some tx := rfl
  have hvalid : ∀ recipient ∈ [row 100, row 200],
      (addressApi.decodeDestination recipient.address).isSome = true := by decide
  have hvalid' : ∀ recipient ∈ [row 1, row 1, row 1, row 1],
      (addressApi.decodeDestination recipient.address).isSome = true := by decide
  have hspec := captureReviewedRecipients_spec hdraft hvalid
  have hfail := captureReviewedRecipients_spec hdraft hvalid'
  have hsome : (captureReviewedRecipients addressApi draft [row 100, row 200]).isSome = true := by decide
  have hexact : Pairing (PaysRowExactly addressApi tx.vout) [row 100, row 200] [2, 1] := by
    refine ⟨.cons ⟨⟨100, [81]⟩, rfl, rfl, rfl⟩ (.cons ⟨⟨200, [81]⟩, rfl, rfl, rfl⟩ .nil), by decide⟩
  exact ⟨hsome, (hspec.2.1 hsome).2 ⟨_, hexact⟩, hfail.2.2 (by decide)⟩

end TwoOutputs

end GuiQml.Wallet
