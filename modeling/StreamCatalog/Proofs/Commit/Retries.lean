import Mathlib.Data.ENat.Lattice
import Mathlib.Logic.Function.Iterate
import StreamCatalog.Commit.Retry

/-!
# How often a call is made

A call that is made again and again has a sequence of outcomes. Of these, attempts see those
up to the first one that is final, which is a success or a permanent failure, but no more than
the budget allows; and they end with what the last of them says (`retry_followsLaw`).
-/

namespace StreamCatalog

variable {σ α : Type}

/-! ## Outcomes -/

/-- The state that a number of calls leave behind. -/
def stateAfter (call : σ → Except CatalogError α × σ) (s : σ) (n : ℕ) : σ :=
  (fun s => (call s).2)^[n] s

/-- The outcomes of a call that is made again and again. -/
def outcomesOf (call : σ → Except CatalogError α × σ) (s : σ) (n : ℕ) : Except CatalogError α :=
  (call (stateAfter call s n)).1

/-- The call with the given outcomes. It counts how often it is made. -/
def scripted (outcomes : ℕ → Except CatalogError α) (n : ℕ) : Except CatalogError α × ℕ :=
  (outcomes n, n + 1)

theorem stateAfter_succ (call : σ → Except CatalogError α × σ) (s : σ) (n : ℕ) :
    stateAfter call s (n + 1) = stateAfter call (call s).2 n := rfl

theorem outcomesOf_succ (call : σ → Except CatalogError α × σ) (s : σ) (n : ℕ) :
    outcomesOf call s (n + 1) = outcomesOf call (call s).2 n := rfl

theorem stateAfter_scripted (outcomes : ℕ → Except CatalogError α) (n : ℕ) :
    stateAfter (scripted outcomes) 0 n = n :=
  (Nat.succ_iterate 0 n).trans (Nat.zero_add n)

theorem outcomesOf_scripted (outcomes : ℕ → Except CatalogError α) :
    outcomesOf (scripted outcomes) 0 = outcomes := by
  funext n
  rw [outcomesOf, stateAfter_scripted, scripted]

/-- Whether an outcome ends the attempts: a success, or a failure that is permanent. -/
def IsFinal : Except CatalogError α → Prop
  | .ok _ => True
  | .error e => e.isTransient = false

/-- The place of the first final outcome, counted from one, if there is any. -/
noncomputable def firstFinal (outcomes : ℕ → Except CatalogError α) : ℕ∞ :=
  ⨅ (n : ℕ) (_ : IsFinal (outcomes n)), ((n + 1 : ℕ) : ℕ∞)

theorem firstFinal_eq {outcomes : ℕ → Except CatalogError α} {n : ℕ}
    (hbefore : ∀ i < n, ¬IsFinal (outcomes i)) (hfinal : IsFinal (outcomes n)) :
    firstFinal outcomes = (n + 1 : ℕ) := by
  refine le_antisymm (iInf₂_le n hfinal) (le_iInf₂ fun i hi => ?_)
  have hle : n ≤ i := not_lt.1 fun hlt => hbefore i hlt hi
  exact Nat.cast_le.2 (Nat.succ_le_succ hle)

theorem lt_firstFinal {outcomes : ℕ → Except CatalogError α} {n : ℕ}
    (hbefore : ∀ i < n, ¬IsFinal (outcomes i)) : (n : ℕ∞) < firstFinal outcomes := by
  refine (ENat.add_one_le_iff (ENat.natCast_ne_top n)).1 (le_iInf₂ fun i hi => ?_)
  have hle : n ≤ i := not_lt.1 fun hlt => hbefore i hlt hi
  exact_mod_cast Nat.succ_le_succ hle

/-! ## The law -/

/-- How attempts with a budget go on a sequence of outcomes: how many calls are made, and what
comes out. -/
structure FollowsLaw (budget : ℕ) (outcomes : ℕ → Except CatalogError α) (calls : ℕ)
    (result : Except RetryFailure α) : Prop where
  /-- Calls are made up to the first final outcome, within the budget. -/
  calls_eq : (calls : ℕ∞) = min (firstFinal outcomes) budget
  /-- A success within the budget is the result. -/
  result_of_ok : ∀ (n : ℕ) a, firstFinal outcomes = (n + 1 : ℕ) → n + 1 ≤ budget →
    outcomes n = .ok a → result = .ok a
  /-- A permanent failure within the budget is reported as such. -/
  result_of_error : ∀ (n : ℕ) e, firstFinal outcomes = (n + 1 : ℕ) → n + 1 ≤ budget →
    outcomes n = .error e → result = .error (.rejected e)
  /-- Else the budget and the last failure are reported. -/
  result_of_lt : (budget : ℕ∞) < firstFinal outcomes →
    ∃ e, outcomes (budget - 1) = .error e ∧ result = .error (.exhausted budget e)

theorem one_le_firstFinal (outcomes : ℕ → Except CatalogError α) : 1 ≤ firstFinal outcomes :=
  le_iInf₂ fun n _ => Nat.one_le_cast.2 (Nat.succ_le_succ (Nat.zero_le n))

/-- The law leaves no choice. -/
theorem FollowsLaw.unique {budget calls calls' : ℕ} {outcomes : ℕ → Except CatalogError α}
    {result result' : Except RetryFailure α} (h : FollowsLaw budget outcomes calls result)
    (h' : FollowsLaw budget outcomes calls' result') : calls = calls' ∧ result = result' := by
  refine ⟨Nat.cast_injective (h.calls_eq.trans h'.calls_eq.symm), ?_⟩
  rcases lt_or_ge (budget : ℕ∞) (firstFinal outcomes) with hlt | hle
  · obtain ⟨e, he, hresult⟩ := h.result_of_lt hlt
    obtain ⟨e', he', hresult'⟩ := h'.result_of_lt hlt
    cases he.symm.trans he'
    rw [hresult, hresult']
  · obtain ⟨place, hplace⟩ := ENat.ne_top_iff_exists.1 (ne_top_of_le_ne_top
      (ENat.natCast_ne_top budget) hle)
    have hpos : 1 ≤ place := Nat.one_le_cast.1 (hplace ▸ one_le_firstFinal outcomes)
    obtain ⟨n, rfl⟩ := Nat.exists_eq_add_of_le' hpos
    have hwithin : n + 1 ≤ budget := Nat.cast_le.1 (hplace ▸ hle)
    cases houtcome : outcomes n with
    | ok a =>
      rw [h.result_of_ok n a hplace.symm hwithin houtcome,
        h'.result_of_ok n a hplace.symm hwithin houtcome]
    | error e =>
      rw [h.result_of_error n e hplace.symm hwithin houtcome,
        h'.result_of_error n e hplace.symm hwithin houtcome]

/-- How attempts end after `n` transient failures: with a success, with a permanent failure, or with
one more transient failure, after which none is left. -/
inductive EndsAt (budget left : ℕ) (outcomes : ℕ → Except CatalogError α) (n : ℕ) :
    Except RetryFailure α → Prop where
  /-- The last call succeeds. -/
  | ok {a : α} (outcome_eq : outcomes n = .ok a) : EndsAt budget left outcomes n (.ok a)
  /-- The last call fails for good. -/
  | rejected {e : CatalogError} (outcome_eq : outcomes n = .error e)
    (permanent : e.isTransient = false) :
    EndsAt budget left outcomes n (.error (.rejected e))
  /-- The last call fails, and none is left. -/
  | exhausted {e : CatalogError} (outcome_eq : outcomes n = .error e)
    (transient : e.isTransient = true) (last : n = left) :
    EndsAt budget left outcomes n (.error (.exhausted budget e))

/-- A failure before the attempts makes one more of them. -/
theorem EndsAt.succ {budget left n : ℕ} {outcomes later : ℕ → Except CatalogError α}
    {result : Except RetryFailure α} (h : EndsAt budget left later n result)
    (hlater : outcomes (n + 1) = later n) : EndsAt budget (left + 1) outcomes (n + 1) result := by
  cases h with
  | ok outcome_eq => exact .ok (hlater.trans outcome_eq)
  | rejected outcome_eq permanent => exact .rejected (hlater.trans outcome_eq) permanent
  | exhausted outcome_eq transient last =>
    exact .exhausted (hlater.trans outcome_eq) transient (congrArg (· + 1) last)

/-- Attempts make calls until one is final or none is left. -/
theorem retryFrom_endsAt (call : σ → Except CatalogError α × σ) (budget left : ℕ) (s : σ) :
    ∃ n ≤ left, (∀ i < n, ¬IsFinal (outcomesOf call s i)) ∧
      (retryFrom call budget left s).2 = stateAfter call s (n + 1) ∧
      EndsAt budget left (outcomesOf call s) n (retryFrom call budget left s).1 := by
  fun_induction retryFrom call budget left s with
  | case1 left s a after hcall =>
    exact ⟨0, Nat.zero_le _, nofun, congrArg Prod.snd hcall.symm, .ok (congrArg Prod.fst hcall)⟩
  | case2 s e after hcall htransient =>
    exact ⟨0, le_rfl, nofun, congrArg Prod.snd hcall.symm,
      .exhausted (congrArg Prod.fst hcall) htransient rfl⟩
  | case3 s e after hcall htransient left ih =>
    -- The calls that follow see the outcomes from the second one on.
    obtain ⟨n, hle, hbefore, hafter, hends⟩ := ih
    have hnext : (call s).2 = after := congrArg Prod.snd hcall
    refine ⟨n + 1, Nat.succ_le_succ hle, ?_, ?_, hends.succ ?_⟩
    · intro i hi
      cases i with
      | zero =>
        have hfirst : outcomesOf call s 0 = .error e := congrArg Prod.fst hcall
        rw [hfirst, IsFinal, htransient]
        exact Bool.noConfusion
      | succ i =>
        rw [outcomesOf_succ, hnext]
        exact hbefore i (Nat.lt_of_succ_lt_succ hi)
    · rw [hafter, stateAfter_succ call s, hnext]
    · rw [outcomesOf_succ, hnext]
  | case4 left s e after hcall hpermanent =>
    exact ⟨0, Nat.zero_le _, nofun, congrArg Prod.snd hcall.symm,
      .rejected (congrArg Prod.fst hcall) (by simpa using hpermanent)⟩

variable {left n : ℕ} {outcomes : ℕ → Except CatalogError α} {result : Except RetryFailure α}

/-- Attempts that end with the first final outcome. -/
private theorem followsLaw_of_isFinal (hle : n ≤ left) (hbefore : ∀ i < n, ¬IsFinal (outcomes i))
    (hfinal : IsFinal (outcomes n)) (hok : ∀ a, outcomes n = .ok a → result = .ok a)
    (herror : ∀ e, outcomes n = .error e → result = .error (.rejected e)) :
    FollowsLaw (left + 1) outcomes (n + 1) result := by
  have hfirst := firstFinal_eq hbefore hfinal
  have hwithin : ((n + 1 : ℕ) : ℕ∞) ≤ (left + 1 : ℕ) := Nat.cast_le.2 (Nat.succ_le_succ hle)
  have hplace : ∀ m : ℕ, firstFinal outcomes = (m + 1 : ℕ) → m = n := by
    intro m hm
    exact Nat.succ_injective (Nat.cast_injective (hm.symm.trans hfirst))
  constructor
  case calls_eq => exact (min_eq_left (hfirst ▸ hwithin)).trans hfirst |>.symm
  case result_of_ok => exact fun m a hm _ ha => hok a (hplace m hm ▸ ha)
  case result_of_error => exact fun m e hm _ he => herror e (hplace m hm ▸ he)
  case result_of_lt => exact fun hlt => absurd hwithin (not_le.2 (hfirst ▸ hlt))

/-- Attempts that end with the budget. -/
private theorem followsLaw_of_exhausted {e : CatalogError}
    (hbefore : ∀ i < left + 1, ¬IsFinal (outcomes i)) (he : outcomes left = .error e) :
    FollowsLaw (left + 1) outcomes (left + 1) (.error (.exhausted (left + 1) e)) := by
  have hlt := lt_firstFinal hbefore
  have hbeyond : ∀ m : ℕ, firstFinal outcomes = (m + 1 : ℕ) → ¬m + 1 ≤ left + 1 := by
    intro m hm hle
    rw [hm] at hlt
    exact absurd hle (not_le.2 (Nat.cast_lt.1 hlt))
  constructor
  case calls_eq => exact (min_eq_right hlt.le).symm
  case result_of_ok => exact fun m a hm hle _ => absurd hle (hbeyond m hm)
  case result_of_error => exact fun m e hm hle _ => absurd hle (hbeyond m hm)
  case result_of_lt => exact fun _ => ⟨e, he, rfl⟩

/-- Attempts that end so follow the law. -/
theorem EndsAt.followsLaw (h : EndsAt (left + 1) left outcomes n result) (hle : n ≤ left)
    (hbefore : ∀ i < n, ¬IsFinal (outcomes i)) : FollowsLaw (left + 1) outcomes (n + 1) result := by
  cases h with
  | ok outcome_eq =>
    refine followsLaw_of_isFinal hle hbefore (outcome_eq ▸ trivial) ?_ ?_
    · intro a ha
      exact congrArg _ (Except.ok.inj (outcome_eq.symm.trans ha))
    · intro e he
      cases outcome_eq.symm.trans he
  | rejected outcome_eq permanent =>
    refine followsLaw_of_isFinal hle hbefore (outcome_eq ▸ permanent) ?_ ?_
    · intro a ha
      cases outcome_eq.symm.trans ha
    · intro e he
      cases outcome_eq.symm.trans he
      rfl
  | exhausted outcome_eq transient last =>
    subst last
    refine followsLaw_of_exhausted ?_ outcome_eq
    intro i hi
    rcases Nat.lt_succ_iff_lt_or_eq.1 hi with hlt | rfl
    · exact hbefore i hlt
    · rw [outcome_eq, IsFinal, transient]
      exact Bool.noConfusion

/-- Attempts at any call follow the law on its outcomes, and leave the state of the calls that are
made. No attempts count as one. -/
theorem retry_followsLaw (attempts : ℕ) (call : σ → Except CatalogError α × σ) (s : σ) :
    ∃ calls, FollowsLaw (max 1 attempts) (outcomesOf call s) calls (retry attempts call s).1 ∧
      (retry attempts call s).2 = stateAfter call s calls := by
  have hbudget : max 1 attempts = attempts - 1 + 1 := by omega
  obtain ⟨n, hle, hbefore, hafter, hends⟩ :=
    retryFrom_endsAt call (max 1 attempts) (attempts - 1) s
  rw [retry, hbudget]
  rw [hbudget] at hafter hends
  exact ⟨n + 1, hends.followsLaw hle hbefore, hafter⟩

end StreamCatalog
