/-!
# Separating a list by exchanges

`separate` brings the items with a property to the front by exchanging the first
item out of place with the last one out of place, over and over. Items in place
stay where they are, so the exchanged ones change their order. Both parts
together have as many items as the list.
-/

namespace StreamCatalog

variable {α : Type}

/-- The list with its items that have the property replaced, one after the other, by those
of `spare`. -/
def replaceWhere (p : α → Bool) : List α → List α → List α
  | s :: spare, x :: xs =>
    if p x then s :: replaceWhere p spare xs else x :: replaceWhere p (s :: spare) xs
  | _, xs => xs

/-- The items with a property, and the others, as exchanges between the two ends leave them. -/
def separate (p : α → Bool) (xs : List α) : List α × List α :=
  let n := xs.countP p
  let front := xs.take n
  let back := xs.drop n
  (replaceWhere (!p ·) (back.filter p).reverse front,
    (replaceWhere p (front.filter (!p ·)) back.reverse).reverse)

@[simp] theorem length_replaceWhere (p : α → Bool) (spare xs : List α) :
    (replaceWhere p spare xs).length = xs.length := by
  fun_induction replaceWhere p spare xs with
  | case1 s spare x xs _ ih => simp [ih]
  | case2 s spare x xs _ ih => simp [ih]
  | case3 => rfl

/-- No item is lost and none is added. -/
theorem length_separate (p : α → Bool) (xs : List α) :
    (separate p xs).1.length + (separate p xs).2.length = xs.length := by
  simp only [separate, length_replaceWhere, List.length_reverse, List.length_take,
    List.length_drop]
  omega

end StreamCatalog
