import StreamCatalog.Catalog.Basic

/-!
# Bounded retries

A call whose failure is transient is made again, up to a number of attempts. A
permanent failure ends the attempts at once.
-/

namespace StreamCatalog

/-- How attempts end without success. -/
inductive RetryFailure where
  /-- All attempts failed; the last one with this failure. -/
  | exhausted (attempts : Nat) (last : CatalogError)
  /-- An attempt failed for good. -/
  | rejected (source : CatalogError)
deriving DecidableEq, Repr

/-- Make a call, and after transient failures up to `left` further ones. The failure reports
`attempts` attempts. -/
def retryFrom {σ α : Type} (call : σ → Except CatalogError α × σ) (attempts : Nat) :
    (left : Nat) → σ → Except RetryFailure α × σ
  | left, s =>
    match call s with
    | (.ok a, s) => (.ok a, s)
    | (.error e, s) =>
      if e.isTransient then
        match left with
        | 0 => (.error (.exhausted attempts e), s)
        | left + 1 => retryFrom call attempts left s
      else
        (.error (.rejected e), s)

/-- Make a call up to `attempts` times, and at least once. -/
def retry {σ α : Type} (attempts : Nat) (call : σ → Except CatalogError α × σ) (s : σ) :
    Except RetryFailure α × σ :=
  retryFrom call (max 1 attempts) (attempts - 1) s

end StreamCatalog
