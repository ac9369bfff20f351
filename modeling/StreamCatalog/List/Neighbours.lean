/-!
# Lists without equal neighbours

`dedupNeighbours` keeps the first of each run of equal neighbours.
-/

namespace StreamCatalog

/-- A list without neighbours that are equal. -/
def dedupNeighbours {α : Type} [BEq α] (xs : List α) : List α :=
  xs.foldr (fun x rest => if rest.head? == some x then x :: rest.tail else x :: rest) []

end StreamCatalog
