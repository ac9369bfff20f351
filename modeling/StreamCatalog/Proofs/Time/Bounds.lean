import Mathlib.Order.Bounds.Basic
import Mathlib.Order.MinMax
import StreamCatalog.Time.Instant

/-!
# The bounds of some instants

Instants are linearly ordered. The minimum and the maximum of a list are its
least and its greatest instant, and are kept when one instant is added.
-/

namespace StreamCatalog

instance : LinearOrder Instant where
  le_refl a := by
    rw [Instant.le_def]
    omega
  le_trans a b c := by
    simp only [Instant.le_def]
    omega
  lt_iff_le_not_ge a b := by
    simp only [Instant.lt_def, Instant.le_def]
    omega
  le_antisymm a b hab hba := by
    rw [Instant.le_def] at hab hba
    obtain ⟨hseconds, hnanos⟩ : a.seconds = b.seconds ∧ a.nanos = b.nanos := by omega
    cases a
    cases b
    cases hseconds
    cases hnanos
    rfl
  le_total a b := by
    simp only [Instant.le_def]
    omega
  toDecidableLE a b := inferInstance
  toDecidableLT a b := inferInstance

instance : Std.LawfulOrderMax Instant :=
  .of_max_le_iff (fun _ _ _ => max_le_iff) fun _ _ => max_choice _ _

/-- The minimum of a list is its least member. -/
theorem min?_eq_some_iff_isLeast {ts : List Instant} {t : Instant} :
    ts.min? = some t ↔ IsLeast {u | u ∈ ts} t :=
  List.min?_eq_some_iff

/-- The maximum of a list is its greatest member. -/
theorem max?_eq_some_iff_isGreatest {ts : List Instant} {t : Instant} :
    ts.max? = some t ↔ IsGreatest {u | u ∈ ts} t :=
  List.max?_eq_some_iff

/-- The minimum of one more instant. -/
theorem min?_concat (ts : List Instant) (t : Instant) :
    (ts ++ [t]).min? = some ((ts.min?).elim t (min t)) := by
  cases ts with
  | nil => rfl
  | cons u us =>
    rw [List.cons_append, List.min?_cons', List.min?_cons', List.foldl_append, Option.elim_some,
      min_comm]
    rfl

/-- The maximum of one more instant. -/
theorem max?_concat (ts : List Instant) (t : Instant) :
    (ts ++ [t]).max? = some ((ts.max?).elim t (max t)) := by
  cases ts with
  | nil => rfl
  | cons u us =>
    rw [List.cons_append, List.max?_cons', List.max?_cons', List.foldl_append, Option.elim_some,
      max_comm]
    rfl

end StreamCatalog
