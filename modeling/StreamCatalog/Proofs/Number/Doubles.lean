import Mathlib
import StreamCatalog.Geometry.Turn
import StreamCatalog.Proofs.Json.Doubles

/-!
# Finite doubles as numbers

A finite double is a whole number of units of `2 ^ -1074`, which `exactUnits` gives. Finite doubles
are ordered as these numbers (`Binary64.lt_iff`), and although a difference is rounded, it is
positive exactly if the exact one is (`Binary64.zero_lt_sub_iff`): no difference is lost, since all
doubles are multiples of the least positive one.
-/

namespace StreamCatalog.Binary64

open Float.Model Float.Model.UnpackedFloat

/-! ## Doubles taken apart -/

/-- What the parts of a finite double are: a sign and a significand of up to 53 bits, which are all
used unless the exponent is the least one. -/
inductive IsFinite : UnpackedFloat → Prop where
  /-- A zero, of either sign. -/
  | zero (s : Sign) : IsFinite (.zero s)
  /-- Any other number. -/
  | finite {s : Sign} {m : Nat} {e : Int} (pos : 0 < m) (lt : m < 2 ^ 53) (least_le : -1074 ≤ e)
    (normal : -1074 < e → 2 ^ 52 ≤ m) : IsFinite (.finite s m e pos)

/-- The number in units of `2 ^ -1074`. -/
def unitsOf : UnpackedFloat → ℤ
  | .finite s m e _ => s.apply (m * 2 ^ (e + 1074).toNat)
  | _ => 0

theorem toNat_cons_one {w : Nat} (v : BitVec w) : (1#1 ++ v).toNat = 2 ^ w + v.toNat := by
  rw [BitVec.toNat_append, ← Nat.shiftLeft_add_eq_or_of_lt v.isLt]
  simp [Nat.shiftLeft_eq]

theorem isFinite_of_unpack {b : BitVec 64}
    (h : (UnpackedFloat.unpack .binary64 b).isFinite = true) :
    IsFinite (UnpackedFloat.unpack .binary64 b) := by
  have hmantissa : (@unpackMantissa .binary64 b).toNat < 2 ^ 52 :=
    (@unpackMantissa .binary64 b).isLt
  have hbias : ((Format.binary64.exponentBias : Nat) : Int) = 1023 := rfl
  have hbits : ((Format.binary64.mantissaBitsWithoutImplicit : Nat) : Int) = 52 := rfl
  rw [UnpackedFloat.unpack] at h ⊢
  split at h
  next => split at h <;> cases h
  next hfinite =>
    rw [if_neg hfinite]
    split
    next hsubnormal =>
      have hexponent : (@unpackExponent .binary64 b).toNat = 0 := by rw [hsubnormal]; rfl
      split
      next => exact .zero _
      next =>
        refine .finite _ (hmantissa.trans (by norm_num)) ?_ ?_ <;>
          rw [hexponent, hbias, hbits] <;> omega
    next hnormal =>
      have hexponent : (@unpackExponent .binary64 b).toNat ≠ 0 :=
        fun h => hnormal (BitVec.eq_of_toNat_eq h)
      refine .finite _ ?_ ?_ fun _ => ?_
      · rw [toNat_cons_one]
        show 2 ^ 52 + _ < 2 ^ 53
        omega
      · rw [hbias, hbits]
        omega
      · rw [toNat_cons_one]
        exact Nat.le_add_right _ _

theorem isFinite_toModel {x : Float} (hx : x.isFinite = true) : IsFinite x.toModel.unpack :=
  isFinite_of_unpack hx

/-! ## The order -/

theorem compare_mul_two_pow {m n : Nat} {d e : Int} (hm : m < 2 ^ 53) (hn : n < 2 ^ 53)
    (hd : -1074 ≤ d) (he : -1074 ≤ e) (hm' : -1074 < d → 2 ^ 52 ≤ m)
    (hn' : -1074 < e → 2 ^ 52 ≤ n) :
    (compare d e).then (compare m n) =
      compare ((m : ℤ) * 2 ^ (d + 1074).toNat) (n * 2 ^ (e + 1074).toNat) := by
  -- Of two exponents the greater one is not the least, and its significand has all bits.
  have hless : ∀ {m n : Nat} {d e : Int}, m < 2 ^ 53 → -1074 ≤ d → (-1074 < e → 2 ^ 52 ≤ n) →
      d < e → (m : ℤ) * 2 ^ (d + 1074).toNat < n * 2 ^ (e + 1074).toNat := by
    intro m n d e hm hd hn' hde
    obtain ⟨k, hk⟩ : ∃ k, (e + 1074).toNat = (d + 1074).toNat + 1 + k :=
      ⟨(e - d - 1).toNat, by omega⟩
    have hn := hn' (by omega)
    have hnat : m * 2 ^ (d + 1074).toNat < n * 2 ^ (e + 1074).toNat := by
      calc m * 2 ^ (d + 1074).toNat < 2 ^ 53 * 2 ^ (d + 1074).toNat :=
            Nat.mul_lt_mul_of_pos_right hm (Nat.two_pow_pos _)
        _ = 2 ^ 52 * 2 ^ ((d + 1074).toNat + 1) := by ring
        _ ≤ n * 2 ^ (e + 1074).toNat :=
            Nat.mul_le_mul hn (Nat.pow_le_pow_right two_pos (by omega))
    exact_mod_cast hnat
  rcases lt_trichotomy d e with hde | rfl | hde
  · rw [compare_lt_iff_lt.2 hde, compare_lt_iff_lt.2 (hless hm hd hn' hde)]
    rfl
  · rw [compare_eq_iff_eq.2 rfl]
    change compare m n = _
    have hpos : (0 : ℤ) < 2 ^ (d + 1074).toNat := by positivity
    rcases lt_trichotomy m n with hmn | rfl | hmn
    · rw [compare_lt_iff_lt.2 hmn,
        compare_lt_iff_lt.2 ((Int.mul_lt_mul_right hpos).2 (by exact_mod_cast hmn))]
    · rw [compare_eq_iff_eq.2 rfl, compare_eq_iff_eq.2 rfl]
    · rw [compare_gt_iff_gt.2 hmn,
        compare_gt_iff_gt.2 ((Int.mul_lt_mul_right hpos).2 (by exact_mod_cast hmn))]
  · rw [compare_gt_iff_gt.2 hde, compare_gt_iff_gt.2 (hless hn he hm' hde)]
    rfl

theorem compare_neg_neg (a b : ℤ) : compare (-a) (-b) = compare b a := by
  rcases lt_trichotomy a b with h | rfl | h
  · rw [compare_gt_iff_gt.2 (neg_lt_neg h), compare_gt_iff_gt.2 h]
  · rw [compare_eq_iff_eq.2 rfl, compare_eq_iff_eq.2 rfl]
  · rw [compare_lt_iff_lt.2 (neg_lt_neg h), compare_lt_iff_lt.2 h]

theorem unitsOf_finite_pos {m : Nat} {e : Int} (hm : 0 < m) :
    0 < unitsOf (.finite .positive m e hm) := by
  have hpos : (0 : ℤ) < m * 2 ^ (e + 1074).toNat := by positivity
  exact hpos

theorem unitsOf_finite_neg {m : Nat} {e : Int} (hm : 0 < m) :
    unitsOf (.finite .negative m e hm) < 0 :=
  neg_neg_of_pos (unitsOf_finite_pos (e := e) hm)

/-- Finite doubles compare as their numbers. -/
theorem compare_eq {u v : UnpackedFloat} (hu : IsFinite u) (hv : IsFinite v) :
    u.compare v = some (compare (unitsOf u) (unitsOf v)) := by
  cases hu with
  | zero s =>
    cases hv with
    | zero s' => rfl
    | @finite s' n e' hn =>
      cases s' with
      | negative => exact congrArg some (compare_gt_iff_gt.2 (unitsOf_finite_neg hn)).symm
      | positive => exact congrArg some (compare_lt_iff_lt.2 (unitsOf_finite_pos hn)).symm
  | @finite s m e hm hlt hle hnormal =>
    cases hv with
    | zero s' =>
      cases s with
      | negative => exact congrArg some (compare_lt_iff_lt.2 (unitsOf_finite_neg hm)).symm
      | positive => exact congrArg some (compare_gt_iff_gt.2 (unitsOf_finite_pos hm)).symm
    | @finite s' n e' hn hlt' hle' hnormal' =>
      cases s <;> cases s'
      case negative.negative =>
        refine congrArg some ?_
        rw [compare_mul_two_pow hlt hlt' hle hle' hnormal hnormal']
        exact Std.OrientedCmp.eq_swap.symm.trans (compare_neg_neg _ _).symm
      case negative.positive =>
        exact congrArg some (compare_lt_iff_lt.2
          ((unitsOf_finite_neg hm).trans (unitsOf_finite_pos hn))).symm
      case positive.negative =>
        exact congrArg some (compare_gt_iff_gt.2
          ((unitsOf_finite_neg hn).trans (unitsOf_finite_pos hm))).symm
      case positive.positive =>
        exact congrArg some (compare_mul_two_pow hlt hlt' hle hle' hnormal hnormal')

/-! ## Numbers of doubles -/

theorem toNat_unpackExponent (b : BitVec 64) :
    (@unpackExponent .binary64 b).toNat = b.toNat >>> 52 % 2048 := by
  rw [unpackExponent]
  simp

theorem toNat_unpackMantissa (b : BitVec 64) :
    (@unpackMantissa .binary64 b).toNat = b.toNat % 1 <<< 52 := by
  rw [unpackMantissa]
  simp

theorem ofBitVec_unpackSign (b : BitVec 64) : Sign.ofBitVec (@unpackSign .binary64 b) =
    if 1 <<< 63 ≤ b.toNat then .negative else .positive := by
  have hbit : (@unpackSign .binary64 b).toNat = b.toNat >>> 63 % 2 := by
    rw [unpackSign]
    simp
  rw [Sign.ofBitVec, ← ite_not]
  refine if_congr ?_ rfl rfl
  rw [← BitVec.toNat_inj, hbit, Nat.shiftRight_eq_div_pow, BitVec.toNat_ofNat]
  omega

theorem units_eq (negative : Bool) (m : Nat) (e : Int) : (Parts.mk negative m e).units =
    (if negative then Sign.negative else .positive).apply (m * 2 ^ (e + 1074).toNat) := by
  have hshift : ((m <<< (e + 1074).toNat : Nat) : Int) = m * 2 ^ (e + 1074).toNat := by
    rw [Nat.shiftLeft_eq]
    push_cast
    rfl
  cases negative with
  | false => exact hshift
  | true => exact congrArg Neg.neg hshift

/-- The units of a double are those of its parts. -/
theorem unitsOf_unpack {x : Float} (hx : x.isFinite = true) :
    unitsOf x.toModel.unpack = exactUnits x := by
  obtain ⟨b, hb⟩ : ∃ b, b = x.toModel.toBits.toBitVec := ⟨_, rfl⟩
  have htoBits : x.toBits.toNat = b.toNat := by rw [hb]; rfl
  have hbias : ((Format.binary64.exponentBias : Nat) : Int) = 1023 := rfl
  have hbits : ((Format.binary64.mantissaBitsWithoutImplicit : Nat) : Int) = 52 := rfl
  have hfinite : ¬@unpackExponent .binary64 b = -1#11 := by
    have h := isFinite_unpack b
    intro hexponent
    rw [hexponent, decide_eq_true rfl, hb] at h
    exact absurd (hx.symm.trans h) (by decide)
  have hfinite' : ¬b.toNat >>> 52 % 2048 = 2047 := by
    rw [← toNat_unpackExponent]
    exact fun h => hfinite (BitVec.eq_of_toNat_eq h)
  rw [exactUnits, parts?, Float.Model.unpack, ← hb, UnpackedFloat.unpack, if_neg hfinite, htoBits,
    ofBitVec_unpackSign]
  simp only [if_neg hfinite']
  by_cases hzero : b.toNat >>> 52 % 2048 = 0
  · have hexponent : @unpackExponent .binary64 b = 0#11 :=
      BitVec.eq_of_toNat_eq ((toNat_unpackExponent b).trans hzero)
    rw [if_pos hzero, if_pos hexponent, Option.elim_some, units_eq]
    split
    next hmantissa =>
      have hfraction : b.toNat % 1 <<< 52 = 0 := by
        rw [← toNat_unpackMantissa, hmantissa]
        rfl
      rw [hfraction]
      cases decide (1 <<< 63 ≤ b.toNat) <;> rfl
    next =>
      rw [unitsOf, toNat_unpackMantissa, toNat_unpackExponent, hzero, hbias, hbits]
      simp only [decide_eq_true_eq]
      norm_num
  · rw [if_neg hzero, if_neg fun h => hzero (by rw [← toNat_unpackExponent, h]; rfl),
      Option.elim_some, units_eq, unitsOf, toNat_cons_one, toNat_unpackMantissa,
      toNat_unpackExponent, hbias, hbits]
    have hfraction : 2 ^ Format.binary64.mantissaBitsWithoutImplicit + b.toNat % 1 <<< 52 =
        b.toNat % 1 <<< 52 + 1 <<< 52 := Nat.add_comm _ _
    rw [hfraction]
    simp only [decide_eq_true_eq]
    norm_num

section

variable {x y : Float}

theorem compare_unpack (hx : x.isFinite = true) (hy : y.isFinite = true) :
    x.toModel.unpack.compare y.toModel.unpack =
      some (compare (exactUnits x) (exactUnits y)) := by
  rw [← unitsOf_unpack hx, ← unitsOf_unpack hy]
  exact compare_eq (isFinite_toModel hx) (isFinite_toModel hy)

theorem lt_iff (hx : x.isFinite = true) (hy : y.isFinite = true) :
    x < y ↔ exactUnits x < exactUnits y := by
  have hlt : x < y ↔ (x.toModel.unpack.compare y.toModel.unpack == some .lt) = true :=
    decide_eq_true_iff
  rw [hlt, compare_unpack hx hy, ← compare_lt_iff_lt, Option.some_beq_some, beq_iff_eq]

theorem le_iff (hx : x.isFinite = true) (hy : y.isFinite = true) :
    x ≤ y ↔ exactUnits x ≤ exactUnits y := by
  have hle : x ≤ y ↔ (x.toModel.unpack.compare y.toModel.unpack).any (·.isLE) = true :=
    decide_eq_true_iff
  rw [hle, compare_unpack hx hy, ← compare_le_iff_le, Option.any_some, Ordering.isLE_iff_ne_gt]

theorem beq_iff (hx : x.isFinite = true) (hy : y.isFinite = true) :
    (x == y) = true ↔ exactUnits x = exactUnits y := by
  have hbeq : (x == y) = (x.toModel.unpack.compare y.toModel.unpack == some .eq) := rfl
  rw [hbeq, compare_unpack hx hy, Option.some_beq_some, beq_iff_eq, compare_eq_iff_eq]

end

/-! ## Rounding keeps the sign -/

theorem mantissa_repeat_shiftRightOne (em : ExtendedMantissa) (n : Nat) :
    (n.repeat ExtendedMantissa.shiftRightOne em).mantissa = em.mantissa / 2 ^ n := by
  induction n with
  | zero => rw [Nat.repeat, pow_zero, Nat.div_one]
  | succ n ih =>
    rw [Nat.repeat, ExtendedMantissa.shiftRightOne, ih, Nat.div_div_eq_div_mul, pow_succ]

theorem roundedMantissa_mem (em : ExtendedMantissa) :
    em.roundedMantissa = em.mantissa ∨ em.roundedMantissa = em.mantissa + 1 := by
  rcases em with ⟨m, _ | _, _ | _⟩
  · exact .inl rfl
  · exact .inl rfl
  · rcases Nat.mod_two_eq_zero_or_one m with h | h
    · exact .inl (congrArg (m + ·) h)
    · exact .inr (congrArg (m + ·) h)
  · exact .inr rfl

theorem mantissa_shiftToExponent (m : Nat) (e target : Int) (accuracy : Accuracy) :
    (shiftToExponent m e accuracy target).1.mantissa = m / 2 ^ (target - e).toNat := by
  rw [shiftToExponent]
  refine (mantissa_repeat_shiftRightOne _ _).trans ?_
  rcases accuracy with _ | ⟨_ | _ | _⟩ <;> rfl

theorem targetExponent_totalExponent (m : Nat) (e : Int) :
    Format.binary64.targetExponent (totalExponent m e) = max (m.log2 + e - 52) (-1074) := by
  have hbits : (Format.binary64.mantissaBits : Int) = 53 := rfl
  have hleast : Format.binary64.minExponent = -1074 := rfl
  rw [Format.targetExponent, totalExponent, hbits, hleast]
  congr 1
  ring

theorem mantissa_lt_of_log2_le {m : Nat} (hm : 0 < m) (h : m.log2 ≤ 52) : m < 2 ^ 53 :=
  (Nat.log2_lt hm.ne').1 (Nat.lt_succ_of_le h)

/-- The second shift of a rounding leaves a significand as it is, or halves one that has become a
bit longer. -/
theorem shift_rounded {r : Nat} {e : Int} (hr : 0 < r) (hr' : r ≤ 2 ^ 53) (he : -1074 ≤ e) :
    let shifted := shiftToTargetExponent .binary64 r e .exact
    0 < shifted.1.mantissa ∧ shifted.1.mantissa < 2 ^ 53 ∧ -1074 ≤ shifted.2 := by
  have hexponent : ∀ target, (shiftToExponent r e .exact target).2 = e + (target - e).toNat :=
    fun _ => rfl
  dsimp only
  rw [shiftToTargetExponent, mantissa_shiftToExponent, targetExponent_totalExponent, hexponent]
  rcases hr'.eq_or_lt with rfl | hlt
  · rw [Nat.log2_two_pow]
    have hshift : (max (((53 : Nat) : Int) + e - 52) (-1074) - e).toNat = 1 := by omega
    rw [hshift]
    exact ⟨by norm_num, by norm_num, by omega⟩
  · have hlog : r.log2 ≤ 52 := Nat.le_of_lt_succ ((Nat.log2_lt hr.ne').2 hlt)
    have hshift : (max ((r.log2 : Int) + e - 52) (-1074) - e).toNat = 0 := by omega
    rw [hshift, pow_zero, Nat.div_one]
    exact ⟨hr, hlt, by omega⟩

/-- The first shift of a rounding leaves a significand that has all bits if any was lost. -/
theorem shifted_mem {m : Nat} {e : Int} (hm : 0 < m) (he : -1074 ≤ e) :
    let q := m / 2 ^ (max (m.log2 + e - 52) (-1074) - e).toNat
    0 < q ∧ q < 2 ^ 53 := by
  rcases Nat.lt_or_ge 52 m.log2 with hlog | hlog
  · have hshift : (max ((m.log2 : Int) + e - 52) (-1074) - e).toNat = m.log2 - 52 := by omega
    have hsplit : 2 ^ m.log2 = 2 ^ 52 * 2 ^ (m.log2 - 52) := by rw [← pow_add]; congr 1; omega
    have hlow := Nat.log2_self_le hm.ne'
    have hhigh : m < 2 ^ (m.log2 + 1) := Nat.lt_log2_self
    rw [hsplit] at hlow
    rw [pow_succ, hsplit] at hhigh
    rw [hshift]
    constructor
    · exact Nat.div_pos (le_trans (Nat.le_mul_of_pos_left _ (by norm_num)) hlow)
        (Nat.two_pow_pos _)
    · rw [Nat.div_lt_iff_lt_mul (Nat.two_pow_pos _)]
      calc m < 2 ^ 52 * 2 ^ (m.log2 - 52) * 2 := hhigh
        _ = 2 ^ 53 * 2 ^ (m.log2 - 52) := by ring
  · have hshift : (max ((m.log2 : Int) + e - 52) (-1074) - e).toNat = 0 := by omega
    rw [hshift, pow_zero, Nat.div_one]
    exact ⟨hm, mantissa_lt_of_log2_le hm hlog⟩

theorem exists_roundWithAccuracy (s : Sign) {m : Nat} {e : Int} (hm : 0 < m) (he : -1074 ≤ e) :
    ∃ m' e' h, roundWithAccuracy .binary64 s m e .exact = .finite s m' e' h ∧
      m' < 2 ^ 53 ∧ -1074 ≤ e' := by
  obtain ⟨hq, hq'⟩ := shifted_mem hm he
  have hrounded : 0 < (shiftToTargetExponent .binary64 m e .exact).1.roundedMantissa ∧
      (shiftToTargetExponent .binary64 m e .exact).1.roundedMantissa ≤ 2 ^ 53 := by
    have hmantissa : (shiftToTargetExponent .binary64 m e .exact).1.mantissa =
        m / 2 ^ (max (m.log2 + e - 52) (-1074) - e).toNat := by
      rw [shiftToTargetExponent, mantissa_shiftToExponent, targetExponent_totalExponent]
    rcases roundedMantissa_mem (shiftToTargetExponent .binary64 m e .exact).1 with h | h <;>
      rw [h, hmantissa] <;> omega
  have hexponent : -1074 ≤ (shiftToTargetExponent .binary64 m e .exact).2 := by
    have h : (shiftToTargetExponent .binary64 m e .exact).2 =
        e + (Format.binary64.targetExponent (totalExponent m e) - e).toNat := rfl
    omega
  obtain ⟨hpos, hlt, hle⟩ := shift_rounded hrounded.1 hrounded.2 hexponent
  exact ⟨_, _, hpos, dif_neg hpos.ne', hlt, hle⟩

/-- What is rounded to a double is not zero, and has its sign. -/
theorem exists_round (s : Sign) {m : Nat} {e : Int} (hm : 0 < m) (he : -1074 ≤ e) :
    ∃ m' e' h, UnpackedFloat.round .binary64 s m e = .finite s m' e' h ∧ m' < 2 ^ 53 ∧ -1074 ≤ e' := by
  rw [UnpackedFloat.round, decreaseExponent, targetExponent_totalExponent]
  refine exists_roundWithAccuracy s ?_ (by omega)
  rw [Nat.shiftLeft_eq]
  positivity

/-! ## Packing keeps the sign -/

/-- A double with a sign that is not zero: a finite one, or an infinity. -/
inductive IsSigned (s : Sign) : UnpackedFloat → Prop where
  /-- A finite one. -/
  | finite (m : Nat) (e : Int) (pos : 0 < m) : IsSigned s (.finite s m e pos)
  /-- An infinity. -/
  | infinity : IsSigned s (.infinity s)

theorem unpackSign_packComponents {s : Sign} {e : BitVec 11} {m : BitVec 52} :
    Sign.ofBitVec (unpackSign (packComponents .binary64 s e m)) = s := by
  simp only [unpackSign, packComponents, BitVec.extractLsb]
  rw [BitVec.extractLsb'_append_eq_of_le (by omega), BitVec.extractLsb'_append_eq_of_le (by omega)]
  cases s <;> rfl

theorem isSigned_packComponents {s : Sign} {e : BitVec 11} {m : BitVec 52} (he : e ≠ -1#11)
    (hne : e ≠ 0#11 ∨ m ≠ 0#52) :
    IsSigned s (UnpackedFloat.unpack .binary64 (packComponents .binary64 s e m)) := by
  rw [UnpackedFloat.unpack]
  simp only [unpackMantissa_packComponents, unpackExponent_packComponents,
    unpackSign_packComponents]
  rw [if_neg he]
  split
  next hzero =>
    rw [dif_neg (hne.resolve_left (not_not.2 hzero))]
    exact .finite _ _ _
  next => exact .finite _ _ _

/-- A rounded number keeps its sign, even if it is too great for a double. -/
theorem isSigned_unpack_pack (s : Sign) {m : Nat} {e : Int} (hm : 0 < m) (hlt : m < 2 ^ 53)
    (he : -1074 ≤ e) : IsSigned s
      (UnpackedFloat.unpack .binary64 (UnpackedFloat.pack .binary64 (.finite s m e hm))) := by
  have hbias : ((Format.binary64.exponentBias : Nat) : Int) = 1023 := rfl
  have hbits : ((Format.binary64.mantissaBitsWithoutImplicit : Nat) : Int) = 52 := rfl
  have hlog : m.log2 ≤ 52 := Nat.le_of_lt_succ ((Nat.log2_lt hm.ne').2 hlt)
  rw [UnpackedFloat.pack]
  simp only [hbias, hbits]
  split
  next => cases s <;> exact .infinity
  next hsmall =>
    have hexponent : (BitVec.ofNat 11 (e + 1023 + 52).toNat).toNat = (e + 1023 + 52).toNat := by
      rw [BitVec.toNat_ofNat]
      exact Nat.mod_eq_of_lt (by omega)
    split
    next =>
      refine isSigned_packComponents (fun h => ?_) (.inl fun h => ?_) <;>
        rw [h] at hexponent <;> simp at hexponent <;> omega
    next hshort =>
      have hlt' : m < 2 ^ 52 := by
        refine (Nat.log2_lt hm.ne').1 (lt_of_le_of_ne hlog fun h => hshort ?_)
        rw [h]
        rfl
      refine isSigned_packComponents (by decide) (.inr fun h => hm.ne' ?_)
      have hmantissa := congrArg BitVec.toNat h
      rw [BitVec.toNat_ofNat, Nat.mod_eq_of_lt hlt'] at hmantissa
      exact hmantissa

/-! ## Differences -/

/-- The sign of a number, as that of the double it is rounded to. -/
inductive HasSignOf (n : ℤ) : UnpackedFloat → Prop where
  /-- Zero. -/
  | zero (s : Sign) (eq_zero : n = 0) : HasSignOf n (.zero s)
  /-- A positive number. -/
  | positive {u : UnpackedFloat} (pos : 0 < n) (signed : IsSigned .positive u) : HasSignOf n u
  /-- A negative number. -/
  | negative {u : UnpackedFloat} (neg : n < 0) (signed : IsSigned .negative u) : HasSignOf n u

/-- The double after an operation, as it is taken apart again. -/
def repack (u : UnpackedFloat) : UnpackedFloat :=
  UnpackedFloat.unpack .binary64 (UnpackedFloat.pack .binary64 u)

theorem hasSignOf_zero (s : Sign) : HasSignOf 0 (repack (.zero s)) := by
  cases s <;> exact .zero _ rfl

theorem hasSignOf_finite {s : Sign} {m : Nat} {e : Int} (hm : 0 < m) (hlt : m < 2 ^ 53)
    (he : -1074 ≤ e) : HasSignOf (unitsOf (.finite s m e hm)) (repack (.finite s m e hm)) := by
  have hsigned := isSigned_unpack_pack s hm hlt he
  cases s with
  | negative => exact .negative (unitsOf_finite_neg hm) hsigned
  | positive => exact .positive (unitsOf_finite_pos hm) hsigned

theorem hasSignOf_normalize (n : ℤ) {e : Int} (he : -1074 ≤ e) (s : Sign) :
    HasSignOf n (repack (UnpackedFloat.normalize .binary64 n e s)) := by
  rw [UnpackedFloat.normalize]
  rcases lt_trichotomy n 0 with h | rfl | h
  · rw [compare_lt_iff_lt.2 h]
    obtain ⟨m, e, hm, hround, hlt, he⟩ := exists_round .negative (m := (-n).toNat) (by omega) he
    rw [hround]
    exact .negative h (isSigned_unpack_pack .negative hm hlt he)
  · exact hasSignOf_zero s
  · rw [compare_gt_iff_gt.2 h]
    obtain ⟨m, e, hm, hround, hlt, he⟩ := exists_round .positive (m := n.toNat) (by omega) he
    rw [hround]
    exact .positive h (isSigned_unpack_pack .positive hm hlt he)

theorem HasSignOf.of_mul {n k : ℤ} {u : UnpackedFloat} (h : HasSignOf n u) (hk : 0 < k) :
    HasSignOf (n * k) u := by
  cases h with
  | zero s h => exact .zero s (by rw [h, zero_mul])
  | positive h hsigned => exact .positive (mul_pos h hk) hsigned
  | negative h hsigned => exact .negative (mul_neg_of_neg_of_pos h hk) hsigned

theorem units_decreaseExponent (s : Sign) (m : Nat) {e least : Int} (hle : least ≤ e)
    (hleast : -1074 ≤ least) :
    s.apply ((decreaseExponent m e least).1 : ℤ) * 2 ^ (least + 1074).toNat =
      s.apply (m * 2 ^ (e + 1074).toNat) := by
  have hpow : (2 : ℤ) ^ (e + 1074).toNat =
      2 ^ (e - least).toNat * 2 ^ (least + 1074).toNat := by
    rw [← pow_add]
    congr 1
    omega
  have hshift : ((decreaseExponent m e least).1 : ℤ) = m * 2 ^ (e - least).toNat := by
    rw [decreaseExponent, Nat.shiftLeft_eq]
    push_cast
    rfl
  cases s with
  | negative =>
    simp only [Sign.apply, hshift, hpow]
    ring
  | positive =>
    simp only [Sign.apply, hshift, hpow]
    ring

/-- A difference has the sign of the exact one. -/
theorem hasSignOf_sub {u v : UnpackedFloat} (hu : IsFinite u) (hv : IsFinite v) :
    HasSignOf (unitsOf u - unitsOf v) (repack (UnpackedFloat.sub .binary64 u v)) := by
  cases hu with
  | zero s =>
    cases hv with
    | zero s' => cases s <;> cases s' <;> exact hasSignOf_zero _
    | @finite s' n e' hn hlt hle _ =>
      have hneg : unitsOf (.zero s) - unitsOf (.finite s' n e' hn) =
          unitsOf (.finite (-s') n e' hn) := by
        cases s' with
        | negative => exact (zero_sub _).trans (neg_neg _)
        | positive => exact zero_sub _
      rw [hneg]
      exact hasSignOf_finite hn hlt hle
  | @finite s m e hm hlt hle _ =>
    cases hv with
    | zero s' =>
      have hsame : unitsOf (.finite s m e hm) - unitsOf (.zero s') =
          unitsOf (.finite s m e hm) := sub_zero _
      rw [hsame]
      exact hasSignOf_finite hm hlt hle
    | @finite s' n e' hn hlt' hle' _ =>
      have hleast : -1074 ≤ min e e' := le_min hle hle'
      have hscaled := (hasSignOf_normalize (s.apply ((decreaseExponent m e (min e e')).1 : ℤ) -
        s'.apply ((decreaseExponent n e' (min e e')).1 : ℤ)) hleast .positive).of_mul
        (k := 2 ^ (min e e' + 1074).toNat) (by positivity)
      rw [sub_mul, units_decreaseExponent s m (min_le_left e e') hleast,
        units_decreaseExponent s' n (min_le_right e e') hleast] at hscaled
      exact hscaled

theorem HasSignOf.compare_zero_iff {n : ℤ} {u : UnpackedFloat} (h : HasSignOf n u) :
    (UnpackedFloat.compare (.zero .positive) u == some .lt) = true ↔ 0 < n := by
  cases h with
  | zero s h => exact iff_of_false Bool.false_ne_true (by omega)
  | positive h hsigned => cases hsigned <;> exact iff_of_true rfl h
  | negative h hsigned => cases hsigned <;> exact iff_of_false Bool.false_ne_true (by omega)

/-- A rounded difference of finite doubles is positive exactly if the exact one is. -/
theorem zero_lt_sub_iff {x y : Float} (hx : x.isFinite = true) (hy : y.isFinite = true) :
    (0.0 : Float) < x - y ↔ y < x := by
  have hsign := hasSignOf_sub (isFinite_toModel hx) (isFinite_toModel hy)
  have hsub : (x - y).toModel.unpack =
      repack (UnpackedFloat.sub .binary64 x.toModel.unpack y.toModel.unpack) := rfl
  have hzero : (0.0 : Float).toModel.unpack = .zero .positive := by rfl
  have hlt : (0.0 : Float) < x - y ↔
      ((0.0 : Float).toModel.unpack.compare (x - y).toModel.unpack == some .lt) = true :=
    decide_eq_true_iff
  rw [hlt, hzero, hsub, hsign.compare_zero_iff, sub_pos, lt_iff hy hx, unitsOf_unpack hx,
    unitsOf_unpack hy]

end StreamCatalog.Binary64
