import Rcodex.Foundation.Machine
import Mathlib.Data.Finset.Insert

/-!
# Resources behind a lock that readers share

A lock is held by one process alone or by any number of processes together.  `Guarded` says of a
transducer that it never has both kinds of holders, and that a resource changes only while the lock
is held alone.  So the resource stays the same as long as one process shares the lock
(`Guarded.resource_final`), whatever the others do.
-/

namespace Guarding

variable {σ ε ο κ ρ : Type*}

/-- The lock is not held alone while it is shared, and the resource changes only while it is held
alone. -/
structure Guarded (step : σ → ε → ο × σ) (good : σ → Prop) (shared : σ → Finset κ)
    (alone : σ → Prop) (resource : σ → ρ) : Prop where
  /-- Good states are left only for good states. -/
  good_step : ∀ s e, good s → good (step s e).2
  /-- In a good state the lock is not held in both ways. -/
  not_alone : ∀ s k, good s → k ∈ shared s → ¬alone s
  /-- The resource changes only while the lock is held alone. -/
  resource_step : ∀ s e, good s → ¬alone s → resource (step s e).2 = resource s

namespace Guarded

variable {step : σ → ε → ο × σ} {good : σ → Prop} {shared : σ → Finset κ} {alone : σ → Prop}
  {resource : σ → ρ}

/-- The resource does not change while one process shares the lock, and nobody holds it alone. -/
theorem resource_final (h : Guarded step good shared alone resource) {s : σ} (hs : good s) {k : κ}
    (es : List ε) (hheld : ∀ pre post, es = pre ++ post → k ∈ shared (Machine.final step s pre)) :
    resource (Machine.final step s es) = resource s ∧ ¬alone (Machine.final step s es) := by
  induction es generalizing s with
  | nil => exact ⟨rfl, h.not_alone s k hs (hheld [] [] rfl)⟩
  | cons e es ih =>
    have hfirst : k ∈ shared s := hheld [] (e :: es) rfl
    obtain ⟨hresource, halone⟩ := ih (h.good_step s e hs)
      fun pre post heq => hheld (e :: pre) post (congrArg (e :: ·) heq)
    exact ⟨hresource.trans (h.resource_step s e hs (h.not_alone s k hs hfirst)), halone⟩

end Guarded

end Guarding
