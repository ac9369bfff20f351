import StreamCatalog.Commit.Retry

/-!
# What holds after attempts

A call that is made again after failures ends as one attempt does, in a state
that failures of the call have left (`retry_cases`).
-/

namespace StreamCatalog

variable {σ α : Type} {call : σ → Except CatalogError α × σ} {P : σ → Prop}

/-- Attempts end with a failure after failures, or with the result of a call after failures. -/
private theorem retryFrom_cases (hfail : ∀ s e, P s → (call s).1 = .error e → P (call s).2)
    (attempts left : Nat) {s : σ} (hs : P s) :
    (∃ failure after, retryFrom call attempts left s = (.error failure, after) ∧ P after) ∨
      ∃ last a after, P last ∧ call last = (.ok a, after) ∧
        retryFrom call attempts left s = (.ok a, after) := by
  have hafter : ∀ {s e after}, P s → call s = (.error e, after) → P after := by
    intro s e after hP hcall
    have h := hfail s e hP (by rw [hcall])
    rwa [hcall] at h
  fun_induction retryFrom call attempts left s with
  | case1 left s a after hcall => exact .inr ⟨s, a, after, hs, hcall, rfl⟩
  | case2 s e after hcall htransient => exact .inl ⟨_, _, rfl, hafter hs hcall⟩
  | case3 s e after hcall htransient left ih => exact ih (hafter hs hcall)
  | case4 left s e after hcall hpermanent => exact .inl ⟨_, _, rfl, hafter hs hcall⟩

/-- Attempts end with a failure after failures, or with the result of a call after failures. -/
theorem retry_cases (hfail : ∀ s e, P s → (call s).1 = .error e → P (call s).2) (attempts : Nat)
    {s : σ} (hs : P s) :
    (∃ failure after, retry attempts call s = (.error failure, after) ∧ P after) ∨
      ∃ last a after, P last ∧ call last = (.ok a, after) ∧
        retry attempts call s = (.ok a, after) :=
  retryFrom_cases hfail _ _ hs

end StreamCatalog
