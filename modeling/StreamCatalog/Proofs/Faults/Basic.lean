import Mathlib.Algebra.Group.Nat.Defs
import StreamCatalog.Bytes

/-!
# Computations that may fault

The operations of a machine with 64-bit sizes that stop a program when their
arguments are wrong: reading behind the end, cutting behind the end, differences
below zero, sums that do not fit in their word, and, so that loops can be seen to
end, loops that are given a number of rounds. A function written with them
evaluates to `.ok` exactly when none of them faults.

Buffers and counters of events are apart. Nothing in the bytes that are read can
fill them; they are full when `capacity` bytes have been read, and `Gives` says
that this is the only fault.
-/

namespace StreamCatalog

/-- Why a computation stops. -/
inductive Fault where
  /-- An index is behind the end. -/
  | index
  /-- A slice starts behind its end, or ends behind the end. -/
  | slice
  /-- A difference is below zero. -/
  | underflow
  /-- A number does not fit in its word, or is shifted out of it. -/
  | overflow
  /-- A loop goes on after its last round. -/
  | endless
  /-- A buffer is as long as buffers can be, or a counter of events is at its end. -/
  | full
deriving DecidableEq, Repr

/-- A computation that may fault. -/
abbrev Checked (α : Type) : Type := Except Fault α

namespace Checked

variable {α β σ : Type}

@[simp] theorem ok_bind (a : α) (f : α → Checked β) : ((.ok a : Checked α) >>= f) = f a := rfl

@[simp] theorem pure_eq_ok (a : α) : (pure a : Checked α) = .ok a := rfl

/-! ## Numbers -/

/-- A number as a word of some bits. -/
def word (bits n : Nat) : Checked Nat :=
  if n < 2 ^ bits then .ok n else .error .overflow

theorem word_of_lt {bits n : Nat} (h : n < 2 ^ bits) : word bits n = .ok n :=
  if_pos h

/-- The sum of two sizes. -/
def sum (m n : Nat) : Checked Nat :=
  word 64 (m + n)

theorem sum_of_lt {m n : Nat} (h : m + n < 2 ^ 64) : sum m n = .ok (m + n) :=
  word_of_lt h

/-- The difference of two sizes. -/
def difference (m n : Nat) : Checked Nat :=
  if n ≤ m then .ok (m - n) else .error .underflow

theorem difference_of_le {m n : Nat} (h : n ≤ m) : difference m n = .ok (m - n) :=
  if_pos h

/-- A word of sixteen bits shifted to the left. -/
def shift (w : UInt16) (amount : Nat) : Checked UInt16 :=
  if amount < 16 then .ok (w <<< UInt16.ofNat amount) else .error .overflow

theorem shift_of_lt {w : UInt16} {amount : Nat} (h : amount < 16) :
    shift w amount = .ok (w <<< UInt16.ofNat amount) :=
  if_pos h

/-! ## Sequences -/

/-- The element at an index. -/
def index (xs : List α) (i : Nat) : Checked α :=
  match xs[i]? with
  | some x => .ok x
  | none => .error .index

theorem index_of_getElem? {xs : List α} {i : Nat} {x : α} (h : xs[i]? = some x) :
    index xs i = .ok x := by
  rw [index, h]

@[simp] theorem index_cons_zero (x : α) (xs : List α) : index (x :: xs) 0 = .ok x := rfl

@[simp] theorem index_cons_succ (x : α) (xs : List α) (i : Nat) :
    index (x :: xs) (i + 1) = index xs i := rfl

/-- A sequence that is long enough has a first element, and a rest that is long enough. -/
theorem exists_cons_of_le {xs : List α} {n : Nat} (h : n + 1 ≤ xs.length) :
    ∃ x rest, xs = x :: rest ∧ n ≤ rest.length := by
  cases xs with
  | nil => exact absurd h (Nat.not_succ_le_zero n)
  | cons x rest => exact ⟨x, rest, rfl, Nat.le_of_succ_le_succ h⟩

/-- The sequence with another element at an index. -/
def store (xs : List α) (i : Nat) (x : α) : Checked (List α) :=
  if i < xs.length then .ok (xs.set i x) else .error .index

theorem store_of_lt {xs : List α} {i : Nat} (x : α) (h : i < xs.length) :
    store xs i x = .ok (xs.set i x) :=
  if_pos h

/-- What stands between two positions, if they are in order and there is that much. -/
def slice? (xs : List α) (start stop : Nat) : Option (List α) :=
  if start ≤ stop ∧ stop ≤ xs.length then some ((xs.drop start).take (stop - start)) else none

/-- What stands between two positions. -/
def slice (xs : List α) (start stop : Nat) : Checked (List α) :=
  match slice? xs start stop with
  | some part => .ok part
  | none => .error .slice

theorem slice?_of_le {xs : List α} {start stop : Nat} (hstart : start ≤ stop)
    (hstop : stop ≤ xs.length) :
    slice? xs start stop = some ((xs.drop start).take (stop - start)) :=
  if_pos ⟨hstart, hstop⟩

theorem slice?_of_lt {xs : List α} {start stop : Nat} (h : xs.length < stop) :
    slice? xs start stop = none :=
  if_neg fun hle => absurd hle.2 (Nat.not_le.2 h)

theorem slice_of_le {xs : List α} {start stop : Nat} (hstart : start ≤ stop)
    (hstop : stop ≤ xs.length) :
    slice xs start stop = .ok ((xs.drop start).take (stop - start)) := by
  rw [slice, slice?_of_le hstart hstop]

/-- The slice up to the end. -/
theorem slice_length {xs : List α} {start : Nat} (h : start ≤ xs.length) :
    slice xs start xs.length = .ok (xs.drop start) := by
  rw [slice_of_le h (Nat.le_refl _), List.take_of_length_le (Nat.le_of_eq List.length_drop)]

/-- The slice from the start. -/
theorem slice_zero {xs : List α} {stop : Nat} (h : stop ≤ xs.length) :
    slice xs 0 stop = .ok (xs.take stop) := by
  rw [slice_of_le (Nat.zero_le _) h, List.drop_zero, Nat.sub_zero]

/-- A slice of as many bytes as are asked for, as a part cut off. -/
theorem slice?_add (bs : Bytes) (start n : Nat) (h : start ≤ bs.length) :
    slice? bs start (start + n) = (Bytes.splitAt? n (bs.drop start)).map Prod.fst := by
  by_cases hn : start + n ≤ bs.length
  · rw [slice?_of_le (Nat.le_add_right _ _) hn, Nat.add_sub_cancel_left, Bytes.splitAt?,
      if_pos (by rw [List.length_take, List.length_drop]; omega), Option.map_some]
  · rw [slice?_of_lt (Nat.not_le.1 hn),
      Bytes.splitAt?_eq_none_iff.2 (by rw [List.length_drop]; omega), Option.map_none]

/-- Something computed for each element, if that faults nowhere. -/
theorem mapM_eq_ok {f : α → Checked β} {g : α → β} {xs : List α}
    (h : ∀ x ∈ xs, f x = .ok (g x)) : xs.mapM f = .ok (xs.map g) := by
  induction xs with
  | nil => rfl
  | cons x xs ih =>
    rw [List.mapM_cons, h x List.mem_cons_self, ok_bind,
      ih fun y hy => h y (List.mem_cons_of_mem x hy)]
    rfl

/-! ## Loops -/

/-- Take steps until one gives a result, in some rounds at most. -/
def loop (step : σ → Checked (σ ⊕ α)) : Nat → σ → Checked α
  | 0, _ => .error .endless
  | rounds + 1, s => do
    match ← step s with
    | .inl s => loop step rounds s
    | .inr a => .ok a

/-- A loop ends with what is expected if each step either ends it so or goes on to a smaller state
from which the same is expected. -/
theorem loop_eq {step : σ → Checked (σ ⊕ α)} (inv : σ → Prop) (size : σ → Nat) (expected : σ → α)
    (hstep : ∀ s, inv s →
      step s = .ok (.inr (expected s)) ∨
        ∃ s', step s = .ok (.inl s') ∧ inv s' ∧ size s' < size s ∧ expected s' = expected s)
    {rounds : Nat} {s : σ} (hinv : inv s) (hrounds : size s < rounds) :
    loop step rounds s = .ok (expected s) := by
  induction rounds generalizing s with
  | zero => exact absurd hrounds (Nat.not_lt_zero _)
  | succ rounds ih =>
    rw [loop]
    rcases hstep s hinv with hend | ⟨s', hnext, hinv', hsize, hexpected⟩
    · rw [hend, ok_bind]
    · rw [hnext, ok_bind]
      dsimp only
      rw [ih hinv' (by omega), hexpected]

/-- A step at an offset of a buffer ends as expected, or goes on behind that offset and expects the
same. -/
def Advances (step : σ → Checked (σ ⊕ α)) (offset : σ → Nat) (size : Nat) (expected : σ → α)
    (s : σ) : Prop :=
  step s = .ok (.inr (expected s)) ∨
    ∃ s', step s = .ok (.inl s') ∧ offset s < offset s' ∧ offset s' ≤ size ∧
      expected s' = expected s

/-- A loop through a buffer ends with what is expected, in a round more than there are bytes. -/
theorem loop_eq_of_advances {step : σ → Checked (σ ⊕ α)} {offset : σ → Nat} {size : Nat}
    {expected : σ → α} (hstep : ∀ s, offset s ≤ size → Advances step offset size expected s)
    {s : σ} (hs : offset s ≤ size) : loop step (size + 1) s = .ok (expected s) := by
  refine loop_eq (fun s => offset s ≤ size) (fun s => size - offset s) expected (fun s hle => ?_) hs
    (Nat.lt_succ_of_le (Nat.sub_le _ _))
  refine (hstep s hle).imp_right ?_
  rintro ⟨s', hnext, hless, hle', hexpected⟩
  exact ⟨s', hnext, hle', Nat.sub_lt_sub_left (Nat.lt_of_lt_of_le hless hle') hless, hexpected⟩

/-! ## Buffers and counters -/

/-- How many bytes fill a buffer. -/
def capacity : Nat := 2 ^ 63

/-- A buffer with more bytes behind it. -/
def extend (buffer more : Bytes) : Checked Bytes :=
  if buffer.length + more.length < capacity then .ok (buffer ++ more) else .error .full

/-- A counter of events after one more. -/
def next (count : Nat) : Checked Nat :=
  if count + 1 < 2 ^ 64 then .ok (count + 1) else .error .full

/-- The computation gives the value and the property holds, unless `received` bytes can fill a
buffer or a counter, and one is full. -/
def Gives (received : Nat) (c : Checked α) (a : α) (post : Prop) : Prop :=
  c = .ok a ∧ post ∨ c = .error .full ∧ capacity ≤ received

namespace Gives

variable {received : Nat} {c : Checked α} {a : α} {post : Prop}

theorem of_eq (h : c = .ok a) (hpost : post) : Gives received c a post :=
  .inl ⟨h, hpost⟩

theorem ok (a : α) (hpost : post) : Gives received (.ok a) a post :=
  .inl ⟨rfl, hpost⟩

/-- What comes next may use what holds so far. -/
theorem bind {f : α → Checked β} {b : β} {last : Prop} (hc : Gives received c a post)
    (hf : post → Gives received (f a) b last) : Gives received (c >>= f) b last := by
  rcases hc with ⟨rfl, hpost⟩ | ⟨rfl, hfull⟩
  · exact hf hpost
  · exact .inr ⟨rfl, hfull⟩

end Gives

theorem gives_extend {received : Nat} {buffer more : Bytes}
    (h : buffer.length + more.length ≤ received) :
    Gives received (extend buffer more) (buffer ++ more) ((buffer ++ more).length < capacity) := by
  by_cases hlt : buffer.length + more.length < capacity
  · exact .of_eq (if_pos hlt) (by rwa [List.length_append])
  · exact .inr ⟨if_neg hlt, Nat.le_trans (Nat.not_lt.1 hlt) h⟩

theorem gives_next {received count : Nat} (h : count < received) :
    Gives received (next count) (count + 1) True := by
  by_cases hlt : count + 1 < 2 ^ 64
  · exact .of_eq (if_pos hlt) trivial
  · refine .inr ⟨if_neg hlt, ?_⟩
    rw [capacity]
    omega

end Checked

end StreamCatalog
