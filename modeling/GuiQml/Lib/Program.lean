import Mathlib.Tactic.Basic

/-!
# Programs that throw

What a program throws ends it, but its changes of the state stay. A triple says what holds where it returns
and what holds where it throws.
-/

namespace GuiQml

/-! ## Results -/

theorem bind_eq_ok {ε α β : Type} {x : Except ε α} {f : α → Except ε β} {b : β} :
    x >>= f = .ok b ↔ ∃ a, x = .ok a ∧ f a = .ok b := by
  cases x <;> simp [bind, Except.bind]

theorem foldlM_ok {ε α β : Type} {f : β → α → Except ε β} {xs : List α}
    (h : ∀ x ∈ xs, ∀ b, ∃ b', f b x = .ok b') (b : β) : ∃ b', xs.foldlM f b = .ok b' := by
  induction xs generalizing b with
  | nil => exact ⟨b, rfl⟩
  | cons x xs ih =>
    obtain ⟨b', hx⟩ := h x (by simp) b
    obtain ⟨b'', hxs⟩ := ih (fun y hy => h y (by simp [hy])) b'
    exact ⟨b'', bind_eq_ok.mpr ⟨b', hx, hxs⟩⟩

/-! ## Programs -/

abbrev Program (σ α : Type) := ExceptT String (StateM σ) α

namespace Program

variable {σ α β : Type} {p p' : σ → Prop} {q q' : α → σ → Prop} {r : β → σ → Prop} {e e' : σ → Prop}

/-- The result, or what was thrown, and the state in either case. -/
def exec (x : Program σ α) (s : σ) : Except String α × σ := x.run.run s

/-- `f` is applied on every way out, as by a destructor. -/
def ensure (f : σ → σ) (x : Program σ α) : Program σ α :=
  ExceptT.mk do
    let result ← x.run
    modify f
    return result

/-- Where `p` holds, the program returns with `q` or throws with `e`. -/
def Ends (p : σ → Prop) (x : Program σ α) (q : α → σ → Prop) (e : σ → Prop) : Prop :=
  ∀ s, p s → match x.exec s with
    | (.ok a, s') => q a s'
    | (.error _, s') => e s'

namespace Ends

theorem weaken {x : Program σ α} (h : Ends p x q e) (hp : ∀ s, p' s → p s) (hq : ∀ a s, q a s → q' a s)
    (he : ∀ s, e s → e' s) : Ends p' x q' e' := by
  intro s hs
  have hx := h s (hp s hs)
  match x.exec s, hx with
  | (.ok a, s'), hx => exact hq a s' hx
  | (.error _, s'), hx => exact he s' hx

theorem pure {a : α} (h : ∀ s, p s → q a s) : Ends p (Pure.pure a) q e := h

theorem throw {what : String} (h : ∀ s, p s → e s) : Ends p (throw what : Program σ α) q e := h

theorem modify {f : σ → σ} {q : PUnit → σ → Prop} (h : ∀ s, p s → q ⟨⟩ (f s)) :
    Ends p (modify f : Program σ PUnit) q e := h

theorem get {q : σ → σ → Prop} (h : ∀ s, p s → q s s) : Ends p (get : Program σ σ) q e := h

theorem bind {x : Program σ β} {f : β → Program σ α} (hx : Ends p x r e) (hf : ∀ b, Ends (r b) (f b) q e) :
    Ends p (x >>= f) q e := by
  intro s hs
  have hx := hx s hs
  have hexec : (x >>= f).exec s = match x.exec s with
      | (.ok b, s') => (f b).exec s'
      | (.error what, s') => (.error what, s') := by
    simp only [exec, ExceptT.run_bind, StateT.run_bind]
    rcases x.run.run s with ⟨_ | _, s'⟩ <;> rfl
  rw [hexec]
  match x.exec s, hx with
  | (.ok b, s'), hx => exact hf b s' hx
  | (.error _, s'), hx => exact hx

theorem ite {c : Prop} [Decidable c] {x y : Program σ α} (hx : c → Ends p x q e) (hy : ¬ c → Ends p y q e) :
    Ends p (if c then x else y) q e := by
  split
  · rename_i hc
    exact hx hc
  · rename_i hc
    exact hy hc

theorem forM {items : List β} {x : β → Program σ PUnit} (hx : ∀ b ∈ items, Ends p (x b) (fun _ => p) e) :
    Ends p (items.forM x) (fun _ => p) e := by
  induction items with
  | nil => exact pure fun _ hs => hs
  | cons b items ih =>
    apply bind (hx b (by simp))
    intro _
    exact ih fun b' hb' => hx b' (by simp [hb'])

theorem assume {c : Prop} {x : Program σ α} (h : c → Ends p x q e) : Ends (fun s => c ∧ p s) x q e :=
  fun s hs => h hs.1 s hs.2

theorem ensure {f : σ → σ} {x : Program σ α} (hx : Ends p x (fun a s => q a (f s)) fun s => e (f s)) :
    Ends p (x.ensure f) q e := by
  intro s hs
  have hx := hx s hs
  have hexec : (x.ensure f).exec s = ((x.exec s).1, f (x.exec s).2) := rfl
  rw [hexec]
  match x.exec s, hx with
  | (.ok a, s'), hx => exact hx
  | (.error _, s'), hx => exact hx

end Ends

/-! ## Invariants -/

/-- Whatever the program does, and however it ends, `p` stays true. -/
def Keeps (p : σ → Prop) (x : Program σ α) : Prop := Ends p x (fun _ => p) p

namespace Keeps

theorem pure {a : α} : Keeps p (Pure.pure a) := Ends.pure fun _ hs => hs

theorem throw {what : String} : Keeps p (throw what : Program σ α) := Ends.throw fun _ hs => hs

theorem modify {f : σ → σ} (h : ∀ s, p s → p (f s)) : Keeps p (modify f : Program σ PUnit) := Ends.modify h

theorem get : Keeps p (get : Program σ σ) := Ends.get fun _ hs => hs

theorem bind {x : Program σ β} {f : β → Program σ α} (hx : Keeps p x) (hf : ∀ b, Keeps p (f b)) :
    Keeps p (x >>= f) := Ends.bind hx hf

theorem ite {c : Prop} [Decidable c] {x y : Program σ α} (hx : c → Keeps p x) (hy : ¬ c → Keeps p y) :
    Keeps p (if c then x else y) := Ends.ite hx hy

theorem forM {items : List β} {x : β → Program σ PUnit} (hx : ∀ b ∈ items, Keeps p (x b)) :
    Keeps p (items.forM x) := Ends.forM hx

end Keeps
end Program
end GuiQml
