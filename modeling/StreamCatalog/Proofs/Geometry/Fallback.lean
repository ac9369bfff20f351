import StreamCatalog.Proofs.Geometry.Validity

/-!
# Operators that fall back

What an operator gives is valid, or it is what the operator was given (`Geometry.NoWorse`). Each
single operator checks its own outcome. A chain checks nothing, but goes from one geometry to
another that is no worse at each of its operators, and that is a transitive relation. So this holds
whatever the geometry kernel answers.
-/

namespace StreamCatalog

/-- Whether a geometry is valid, or the same as another one. -/
def Geometry.NoWorse (g out : Geometry) : Prop :=
  out.isValid = true ∨ out = g

namespace Geometry.NoWorse

variable {g between out : Geometry}

theorem refl (g : Geometry) : g.NoWorse g := .inr rfl

theorem trans (h : g.NoWorse between) (h' : between.NoWorse out) : g.NoWorse out := by
  rcases h' with hvalid | rfl
  · exact .inl hvalid
  · exact h

theorem isValid (h : g.NoWorse out) (hg : g.isValid = true) : out.isValid = true := by
  rcases h with hvalid | rfl
  · exact hvalid
  · exact hg

end Geometry.NoWorse

namespace Operator

variable {t : Tolerances} {g out : Geometry} {ops rest : List Operator}

theorem noWorse_validOr (g out : Geometry) : g.NoWorse (validOr g out) := by
  rw [validOr]
  split
  next hvalid => exact .inl hvalid
  next => exact .refl g

private theorem noWorse_of_map_validOr {found : Option Geometry}
    (h : found.map (validOr g) = some out) : g.NoWorse out := by
  obtain ⟨image, -, rfl⟩ := Option.map_eq_some_iff.1 h
  exact noWorse_validOr g image

section

variable [GeometryKernel]

mutual

/-- The result of an operator is no worse than the geometry. -/
theorem noWorse_of_result? : ∀ {op : Operator} {g out : Geometry},
    op.result? t g = some out → g.NoWorse out
  | identity, g, _, h => by
    cases h
    exact .refl g
  | normalize, _, _, h | envelope, _, _, h | partEnvelopes, _, _, h => by
    cases h
    exact noWorse_validOr _ _
  | simplify, _, _, h | convexHull, _, _, h | buffer, _, _, h => noWorse_of_map_validOr h
  | chain _, _, _, h => noWorse_of_chainResult? h

/-- So is that of operators one after the other. -/
theorem noWorse_of_chainResult? : ∀ {ops : List Operator} {g out : Geometry},
    chainResult? t ops g = some out → g.NoWorse out
  | [], g, _, h => by
    cases h
    exact .refl g
  | _ :: _, _, _, h => by
    obtain ⟨between, hbetween, h⟩ := Option.bind_eq_some_iff.1 h
    exact (noWorse_of_result? hbetween).trans (noWorse_of_chainResult? h)

end

/-- A chain is applied in two parts. -/
theorem chainResult?_append (t : Tolerances) (ops rest : List Operator) (g : Geometry) :
    chainResult? t (ops ++ rest) g = (chainResult? t ops g).bind (chainResult? t rest) := by
  induction ops generalizing g with
  | nil => rfl
  | cons op ops ih =>
    rw [List.cons_append, chainResult?, chainResult?, Option.bind_assoc]
    exact congrArg _ (funext ih)

/-- An operator that has a result for a geometry gives a valid one, or the geometry as it is; so it
keeps geometries valid, with every kernel. Where it is a chain, this is so after each of its
operators, seen from the beginning and from there to the end. -/
theorem falls_back {op : Operator} (h : op.result? t g = some out) :
    (out.isValid = true ∨ out = g) ∧ (g.isValid = true → out.isValid = true) ∧
      ∀ ops rest, op = chain (ops ++ rest) → ∃ between,
        (chain ops).result? t g = some between ∧ (chain rest).result? t between = some out ∧
          (between.isValid = true ∨ between = g) ∧ (out.isValid = true ∨ out = between) := by
  have hout := noWorse_of_result? h
  refine ⟨hout, hout.isValid, ?_⟩
  rintro ops rest rfl
  rw [result?, chainResult?_append] at h
  obtain ⟨between, hbetween, hrest⟩ := Option.bind_eq_some_iff.1 h
  exact ⟨between, by rw [result?, hbetween], by rw [result?, hrest],
    noWorse_of_chainResult? hbetween, noWorse_of_chainResult? hrest⟩

end

/-- Two points have no hull with an area, and stay as they are; then they become a box, in a chain
within a chain. -/
theorem falls_back_two_points :
    let g := Geometry.multiPoint [⟨0, 0⟩, ⟨2, 1⟩]
    let out := Geometry.polygon ⟨[⟨2, 0⟩, ⟨2, 1⟩, ⟨0, 1⟩, ⟨0, 0⟩, ⟨2, 0⟩], []⟩
    let op := chain [convexHull, chain [envelope, chain []]]
    op.result? .standard g = some out ∧ out.isValid = true ∧
      ∃ between, (chain [convexHull]).result? .standard g = some between ∧
        (between.isValid = true ∨ between = g) := by
  intro g out op
  have hhull : (chain [convexHull]).result? .standard g = some g :=
    congrArg some (if_neg (by decide +kernel))
  have henvelope : g.envelope = out := congrArg (fun b => b.elim g Box.toGeometry)
    (show g.box? = some ⟨⟨0, 0⟩, ⟨2, 1⟩⟩ by decide +kernel)
  have hresult : op.result? .standard g = some out := by
    have hsplit : op = chain ([convexHull] ++ [chain [envelope, chain []]]) := rfl
    rw [result?] at hhull
    rw [hsplit, result?, chainResult?_append, hhull, Option.bind_some]
    simp only [chainResult?, result?, Option.bind_some, henvelope]
    exact congrArg some (if_pos (by decide +kernel))
  obtain ⟨-, hvalid, hstages⟩ := falls_back hresult
  obtain ⟨between, hbetween, -, hno, -⟩ := hstages [convexHull] [chain [envelope, chain []]] rfl
  exact ⟨hresult, hvalid (by decide +kernel), between, hbetween, hno⟩

end Operator

end StreamCatalog
