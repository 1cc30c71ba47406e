import Mathlib.Data.List.Basic

/-!
# A value and the news of it

A value changes. News of each change is posted later, in order, into a box that keeps only the latest,
and every posting makes a new version. A reader that takes the version first and then the value can tell
afterwards, from the version alone, whether what it read is out of date.
-/

namespace Feeds

structure Feed (α : Type*) where
  value : α
  /-- The news that is still to be posted, oldest first. -/
  unposted : List α := []
  version : Nat := 0
  latest : Option α := none

namespace Feed

variable {α : Type*} (f : Feed α)

def change (v : α) : Feed α := { f with value := v, unposted := f.unposted ++ [v] }

def post (v : α) (rest : List α) : Feed α :=
  { f with unposted := rest, version := f.version + 1, latest := some v }

def take : Feed α := { f with latest := none }

/-- The last news is of the value as it is. -/
structure Ordered : Prop where
  unposted : ∀ v ∈ f.unposted.getLast?, v = f.value
  latest : f.unposted = [] → ∀ v ∈ f.latest, v = f.value

/-- A value that was read after the version was taken. -/
structure Agrees (version : Nat) (v : α) : Prop where
  le : version ≤ f.version
  eq : version = f.version → f.unposted = [] → v = f.value

/-- A copy is right, or news is on its way. -/
def Tracks (v : α) : Prop := f.unposted ≠ [] ∨ f.latest.isSome ∨ v = f.value

variable {f} {v w : α} {n : Nat} {rest : List α}

namespace Ordered

theorem change (v : α) : (f.change v).Ordered := by
  constructor
  · intro w hw
    simp only [Feed.change, List.getLast?_append, List.getLast?_singleton, Option.some_or,
      Option.mem_def, Option.some.injEq] at hw
    exact hw.symm
  · intro hnil
    simp [Feed.change] at hnil

theorem post (h : f.Ordered) (hf : f.unposted = v :: rest) : (f.post v rest).Ordered := by
  constructor
  · intro w hw
    refine h.unposted w ?_
    rw [hf]
    cases rest with
    | nil => cases hw
    | cons x rest => rwa [List.getLast?_cons_cons]
  · intro hnil w hw
    obtain rfl := Option.some.inj hw
    refine h.unposted v ?_
    rw [hf, show rest = [] from hnil]
    rfl

theorem take (h : f.Ordered) : f.take.Ordered := ⟨h.unposted, fun _ _ hv => nomatch hv⟩

end Ordered

namespace Agrees

theorem read (h : n ≤ f.version) : f.Agrees n f.value := ⟨h, fun _ _ => rfl⟩

theorem change (h : f.Agrees n w) (v : α) : (f.change v).Agrees n w :=
  ⟨h.le, fun _ hnil => by simp [Feed.change] at hnil⟩

theorem post (h : f.Agrees n w) : (f.post v rest).Agrees n w :=
  ⟨Nat.le_succ_of_le h.le, fun heq => absurd heq (Nat.ne_of_lt (Nat.lt_succ_of_le h.le))⟩

theorem take (h : f.Agrees n w) : f.take.Agrees n w := ⟨h.le, h.eq⟩

theorem tracks (h : f.Agrees n w) (hn : n = f.version) : f.Tracks w := by
  by_cases hnil : f.unposted = []
  · exact .inr (.inr (h.eq hn hnil))
  · exact .inl hnil

end Agrees

namespace Tracks

theorem change (v w : α) : (f.change v).Tracks w := .inl (by simp [Feed.change])

theorem post (w : α) : (f.post v rest).Tracks w := .inr (.inl rfl)

theorem take (h : f.Tracks w) (hnone : f.latest = none) : f.take.Tracks w := by
  rcases h with h | h | h
  · exact .inl h
  · simp [hnone] at h
  · exact .inr (.inr h)

theorem taken (h : f.Ordered) (hf : f.latest = some v) : f.take.Tracks v := by
  by_cases hnil : f.unposted = []
  · exact .inr (.inr (h.latest hnil v hf))
  · exact .inl hnil

theorem eq_of_quiet (h : f.Tracks w) (hnil : f.unposted = []) (hnone : f.latest = none) :
    w = f.value := by
  rcases h with h | h | h
  · exact absurd hnil h
  · simp [hnone] at h
  · exact h

end Tracks

end Feed

end Feeds
