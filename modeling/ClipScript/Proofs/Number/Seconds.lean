/-
# Arithmetic in whole seconds

A double *counts* `n` if its value is the whole number `n` and `n` is below `2 ^ 53`
(`Double.Counts`); a zero counts nothing whatever its sign is. What fades are computed with
stays within these doubles: the smaller of two, what is left of one when another is taken away,
cut off at zero, and the same to some decimal places. None of it is rounded, so the results are
those for natural numbers, and they are written without a point.
-/
import ClipScript.Filter.Building
import ClipScript.Proofs.Number.Range

set_option autoImplicit false

namespace ClipScript

open Number

namespace Double

/-- **A double of whole seconds.** -/
structure Counts (x : Double) (n : Nat) : Prop where
  value : x.value? = some (n : ℚ)
  small : n < 2 ^ 53

variable {x y : Double} {m n : Nat}

theorem counts_finite (h : n < 2 ^ 53) : (finite n).Counts n := ⟨rfl, h⟩

/-- A double that counts is a natural number, but for the sign of a zero. -/
theorem Counts.cases (h : x.Counts n) : x = .finite n ∨ x = .negativeZero ∧ n = 0 := by
  have hvalue := h.value
  rcases x with _ | _ | _ | p
  · cases hvalue
  · cases hvalue
  · refine .inr ⟨rfl, ?_⟩
    have hzero : (0 : ℚ) = n := Option.some.inj hvalue
    exact_mod_cast hzero.symm
  · exact .inl (congrArg finite (Option.some.inj hvalue))

/-- No double counts two numbers. -/
theorem Counts.unique (hm : x.Counts m) (hn : x.Counts n) : m = n := by
  have heq : (m : ℚ) = n := Option.some.inj (hm.value.symm.trans hn.value)
  exact_mod_cast heq

theorem Counts.unique_of_rel {z : Option Double} {k l : Option Nat} (hk : Option.Rel Counts z k)
    (hl : Option.Rel Counts z l) : k = l := by
  cases hk with
  | none =>
    cases hl
    rfl
  | some hm =>
    cases hl with
    | some hn => rw [hm.unique hn]

/-! ## Order -/

theorem Counts.lt_iff (hx : x.Counts m) (hy : y.Counts n) : x.lt y = true ↔ m < n := by
  rcases hx.cases with rfl | ⟨rfl, rfl⟩
  · rcases hy.cases with rfl | ⟨rfl, rfl⟩
    · simp [lt]
    · simp [lt]
  · rcases hy.cases with rfl | ⟨rfl, rfl⟩
    · simp [lt]
    · simp [lt]

theorem Counts.min (hx : x.Counts m) (hy : y.Counts n) : (x.min y).Counts (m ⊓ n) := by
  rw [Double.min]
  by_cases hlt : n < m
  · rw [if_pos ((hy.lt_iff hx).2 hlt), Nat.min_eq_right hlt.le]
    exact hy
  · rw [if_neg (mt (hy.lt_iff hx).1 hlt), Nat.min_eq_left (Nat.not_lt.1 hlt)]
    exact hx

/-- What does not get above zero is cut off. -/
theorem counts_max_zero (h : x.le (.finite 0) = true) : (x.max (.finite 0)).Counts 0 := by
  have hzero : (finite 0).Counts 0 := ⟨rfl, by decide⟩
  rw [Double.max]
  split
  · exact hzero
  · next hlt =>
    rcases le_finite_iff.1 h with rfl | ⟨p, hp, hle⟩
    · exact absurd rfl hlt
    · refine ⟨?_, hzero.small⟩
      rcases x with _ | _ | _ | q
      · cases hp
      · cases hp
      · rfl
      · obtain rfl := Option.some.inj hp
        have hge : 0 ≤ q := by simpa [lt] using hlt
        rw [value?, le_antisymm hle hge]
        rfl

/-! ## Differences -/

/-- **Whole seconds taken from whole seconds,** if there are as many. -/
theorem Counts.sub (hx : x.Counts m) (hy : y.Counts n) (hle : n ≤ m) :
    (x.sub y).Counts (m - n) := by
  have hsmall : m - n < 2 ^ 53 := lt_of_le_of_lt (Nat.sub_le m n) hx.small
  have hexact : ∀ q : ℚ, q = (m : ℚ) - n → (ofRat q).Counts (m - n) := by
    rintro _ rfl
    rw [← Nat.cast_sub hle, ofRat_natCast hsmall]
    exact counts_finite hsmall
  rw [Double.sub]
  rcases hy.cases with rfl | ⟨rfl, rfl⟩
  · rcases Nat.eq_zero_or_pos n with rfl | hpos
    · -- a zero is taken away as one of the other sign, which changes nothing
      rcases hx.cases with rfl | ⟨rfl, rfl⟩
      · exact hx
      · exact hx
    · have hnum : ¬ ((n : ℚ)).num = 0 := by simpa using hpos.ne'
      rcases hx.cases with rfl | ⟨rfl, rfl⟩
      · rw [neg, if_neg hnum]
        exact hexact _ (sub_eq_add_neg _ _).symm
      · omega
  · rcases hx.cases with rfl | ⟨rfl, rfl⟩
    · exact hexact _ (by simp)
    · exact ⟨rfl, hsmall⟩

/-- More than there is leaves nothing. -/
theorem Counts.sub_le_zero (hx : x.Counts m) (hy : y.Counts n) (hlt : m < n) :
    (x.sub y).le (.finite 0) = true := by
  have hneg : (m : ℚ) - n < 0 := sub_neg.2 (Nat.cast_lt.2 hlt)
  have hnum : ¬ ((n : ℚ)).num = 0 := by
    simp only [Rat.num_natCast, Int.natCast_eq_zero]
    omega
  rcases hy.cases with rfl | ⟨rfl, rfl⟩
  · rw [Double.sub, neg, if_neg hnum, le_finite_iff]
    rcases hx.cases with rfl | ⟨rfl, rfl⟩
    · exact ofRat_neg (by rwa [← sub_eq_add_neg])
    · exact .inr ⟨_, rfl, by simp⟩
  · omega

/-- **What is left of whole seconds** when others are taken away, cut off at zero. -/
theorem Counts.remaining (hx : x.Counts m) (hy : y.Counts n) :
    ((x.sub y).max (.finite 0)).Counts (m - n) := by
  rcases Nat.lt_or_ge m n with hlt | hge
  · rw [Nat.sub_eq_zero_of_le hlt.le]
    exact counts_max_zero (hx.sub_le_zero hy hlt)
  · have hsub := hx.sub hy hge
    have hzero : (finite 0).Counts 0 := ⟨rfl, by decide⟩
    have hnot : ¬ (x.sub y).lt (.finite 0) = true := by
      rw [hsub.lt_iff hzero]
      exact Nat.not_lt_zero _
    rwa [Double.max, if_neg hnot]

/-- **Decimal places** of whole seconds are none. -/
theorem Counts.roundPlaces (hx : x.Counts n) (places : Nat) : (x.roundPlaces places).Counts n := by
  rcases hx.cases with rfl | ⟨rfl, rfl⟩
  · have hunit : 0 < Nat.pow 10 places := Nat.pow_pos (by decide)
    have hround : roundHalfEven (((n : ℚ)).num.natAbs * Nat.pow 10 places) ((n : ℚ)).den =
        n * Nat.pow 10 places := by
      rw [Rat.num_natCast, Rat.den_natCast, Int.natAbs_natCast, roundHalfEven_one]
    have hnonneg : ¬ ((n : ℚ)).num < 0 := by
      rw [Rat.num_natCast]
      omega
    have hratio : ofRatio (n * Nat.pow 10 places) (Nat.pow 10 places) = .finite n := by
      have hne : ((Nat.pow 10 places : Nat) : ℚ) ≠ 0 := Nat.cast_ne_zero.2 hunit.ne'
      rw [ofRatio, Rat.mkRat_eq_div, Int.cast_natCast, Nat.cast_mul, mul_div_cancel_right₀ _ hne,
        ofRat_natCast hx.small]
    rw [Double.roundPlaces]
    simp only [hround, if_neg hnonneg, hratio]
    exact hx
  · exact hx

end Double

/-! ## Texts -/

/-- **Whole seconds are written without a point.** -/
theorem formatNumber_of_counts {x : Double} {n : Nat} (h : x.Counts n) :
    formatNumber x = .ok (toString n) := by
  rcases h.cases with rfl | ⟨rfl, rfl⟩
  · have htrunc : ((n : ℚ)).num.tdiv ((n : ℚ)).den = (n : Int) := by
      rw [Rat.num_natCast, Rat.den_natCast, Nat.cast_one, Int.tdiv_one]
    have hwhole : Double.isWhole (.finite (n : ℚ)) = true := by simp [Double.isWhole]
    simp only [formatNumber, intOfDouble, bind, Except.bind, htrunc, hwhole, if_true]
    rfl
  · rfl

end ClipScript
