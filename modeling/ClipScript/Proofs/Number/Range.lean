/-
# The range of doubles

The largest finite double is `(2 ^ 53 - 1) * 2 ^ 971`. Rounding a number up to there gives
a finite double, and a larger one gives a finite double or an infinite one, never one
beyond the range. So lengths can be subtracted, cut off and rounded to some places
without getting infinite (`isLength_remaining`, `isLength_roundPlaces`). A numeral
can: it has any number of digits (`decimalValue_cases`).

The argument is about the leading place of a quotient. The last place that a double
keeps is 52 places below it, so the factor in front of it has at most 53 binary digits.
-/
import ClipScript.Proofs.Number.Whole
import Mathlib.Algebra.Order.Field.Power
import Mathlib.Tactic.NormNum.Ineq
import Mathlib.Tactic.NormNum.Pow
import Mathlib.Tactic.Linarith
import Mathlib.Tactic.NormNum.Inv

set_option autoImplicit false

namespace ClipScript.Number

variable {n d m : Nat} {e k : Int}

/-! ## The leading place -/

theorem powLe_iff (hd : 0 < d) : powLe 2 k n d = true ↔ (2 : ℚ) ^ k ≤ (n : ℚ) / d := by
  have hd' : (0 : ℚ) < d := by exact_mod_cast hd
  rw [le_div_iff₀ hd']
  rcases k with j | j
  · rw [powLe, decide_eq_true_eq, Int.ofNat_eq_natCast, zpow_natCast]
    exact_mod_cast Iff.rfl
  · have hpow : (0 : ℚ) < 2 ^ (j + 1) := pow_pos two_pos _
    rw [powLe, decide_eq_true_eq, zpow_negSucc, inv_mul_le_iff₀ hpow, mul_comm]
    exact_mod_cast Iff.rfl

/-- **The leading place** of a quotient. -/
theorem floorLog2_spec (hn : 0 < n) (hd : 0 < d) :
    (2 : ℚ) ^ floorLog2 n d ≤ (n : ℚ) / d ∧ (n : ℚ) / d < 2 ^ (floorLog2 n d + 1) := by
  have hd' : (0 : ℚ) < d := by exact_mod_cast hd
  have hnlow : (2 : ℚ) ^ (n.log2 : Int) ≤ n := by
    rw [zpow_natCast]
    exact_mod_cast Nat.log2_self_le hn.ne'
  have hnhigh : (n : ℚ) < 2 ^ ((n.log2 : Int) + 1) := by
    rw [← Nat.cast_succ, zpow_natCast]
    exact_mod_cast Nat.lt_log2_self
  have hdlow : (2 : ℚ) ^ (d.log2 : Int) ≤ d := by
    rw [zpow_natCast]
    exact_mod_cast Nat.log2_self_le hd.ne'
  have hdhigh : (d : ℚ) < 2 ^ ((d.log2 : Int) + 1) := by
    rw [← Nat.cast_succ, zpow_natCast]
    exact_mod_cast Nat.lt_log2_self
  generalize hk : (n.log2 : Int) - (d.log2 : Int) = k
  -- the lengths of the two numbers leave two places
  have hlow : (2 : ℚ) ^ (k - 1) ≤ (n : ℚ) / d := by
    rw [le_div_iff₀ hd']
    calc (2 : ℚ) ^ (k - 1) * d ≤ 2 ^ (k - 1) * 2 ^ ((d.log2 : Int) + 1) := by gcongr
      _ = 2 ^ (n.log2 : Int) := by
        rw [← zpow_add₀ two_ne_zero]
        congr 1
        omega
      _ ≤ n := hnlow
  have hhigh : (n : ℚ) / d < 2 ^ (k + 1) := by
    rw [div_lt_iff₀ hd']
    calc (n : ℚ) < 2 ^ ((n.log2 : Int) + 1) := hnhigh
      _ = 2 ^ (k + 1) * 2 ^ (d.log2 : Int) := by
        rw [← zpow_add₀ two_ne_zero]
        congr 1
        omega
      _ ≤ 2 ^ (k + 1) * d := by gcongr
  simp only [floorLog2, hk]
  split
  · next h => exact ⟨(powLe_iff hd).1 h, hhigh⟩
  · next h =>
    rw [powLe_iff hd, not_le] at h
    rw [Int.sub_add_cancel]
    exact ⟨hlow, h⟩

/-! ## The nearest multiple -/

theorem roundHalfEven_le (hd : 0 < d) (h : n ≤ m * d) : roundHalfEven n d ≤ m := by
  have hwithin := (roundHalfEven_within n d hd).2
  by_contra hlt
  have hmul : (m + 1) * d ≤ roundHalfEven n d * d := Nat.mul_le_mul_right d (by omega)
  rw [Nat.add_mul, Nat.one_mul] at hmul
  omega

theorem le_roundHalfEven (hd : 0 < d) (h : m * d ≤ n) : m ≤ roundHalfEven n d := by
  have hwithin := (roundHalfEven_within n d hd).1
  by_contra hlt
  have hmul : (roundHalfEven n d + 1) * d ≤ m * d := Nat.mul_le_mul_right d (by omega)
  rw [Nat.add_mul, Nat.one_mul] at hmul
  omega

end ClipScript.Number

namespace ClipScript.Double

open ClipScript.Number

variable {n d m k : Nat} {e : Int} {q r : ℚ} {x y : Double}

theorem nearestMultiple_le (hd : 0 < d) (h : (n : ℚ) / d ≤ m * 2 ^ e) :
    nearestMultiple n d e ≤ m := by
  have hd' : (0 : ℚ) < d := by exact_mod_cast hd
  rw [div_le_iff₀ hd'] at h
  rcases e with j | j
  · refine roundHalfEven_le (Nat.mul_pos hd (Nat.pow_pos two_pos)) ?_
    rw [Int.ofNat_eq_natCast, zpow_natCast, mul_assoc, mul_comm ((2 : ℚ) ^ j)] at h
    exact_mod_cast h
  · have hpow : (0 : ℚ) < 2 ^ (j + 1) := pow_pos two_pos _
    refine roundHalfEven_le hd ?_
    rw [zpow_negSucc, mul_right_comm, ← div_eq_mul_inv, le_div_iff₀ hpow] at h
    exact_mod_cast h

theorem le_nearestMultiple (hd : 0 < d) (h : m * 2 ^ e ≤ (n : ℚ) / d) :
    m ≤ nearestMultiple n d e := by
  have hd' : (0 : ℚ) < d := by exact_mod_cast hd
  rw [le_div_iff₀ hd'] at h
  rcases e with j | j
  · refine le_roundHalfEven (Nat.mul_pos hd (Nat.pow_pos two_pos)) ?_
    rw [Int.ofNat_eq_natCast, zpow_natCast, mul_assoc, mul_comm ((2 : ℚ) ^ j)] at h
    exact_mod_cast h
  · have hpow : (0 : ℚ) < 2 ^ (j + 1) := pow_pos two_pos _
    refine le_roundHalfEven hd ?_
    rw [zpow_negSucc, mul_right_comm, ← div_eq_mul_inv, div_le_iff₀ hpow] at h
    exact_mod_cast h

theorem scaled_eq (k : Nat) (e : Int) : scaled k e = k * (2 : ℚ) ^ e := by
  have hpow : ∀ j, ((Nat.pow 2 j : Nat) : ℚ) = 2 ^ j := fun j => Nat.cast_pow 2 j
  rcases e with j | j
  · rw [scaled, Rat.mkRat_eq_div, Int.ofNat_eq_natCast, zpow_natCast, Int.cast_natCast,
      Nat.cast_mul, hpow, Nat.cast_one, div_one]
  · rw [scaled, Rat.mkRat_eq_div, zpow_negSucc, div_eq_mul_inv, Int.cast_natCast, hpow]

/-- **The factor of a double** has at most 53 binary digits, and as many unless the number is too
small for that. -/
theorem nearestMultiple_lastPlace (hn : 0 < n) (hd : 0 < d) :
    nearestMultiple n d (lastPlace n d) ≤ 2 ^ 53 ∧
      (-1074 < lastPlace n d → 2 ^ 52 ≤ nearestMultiple n d (lastPlace n d)) := by
  obtain ⟨hlow, hhigh⟩ := floorLog2_spec hn hd
  have hplace : floorLog2 n d - 52 ≤ lastPlace n d := le_max_left _ _
  constructor
  · refine nearestMultiple_le hd (hhigh.le.trans ?_)
    rw [Nat.cast_pow, Nat.cast_two, ← zpow_natCast, ← zpow_add₀ two_ne_zero]
    exact zpow_le_zpow_right₀ one_le_two (by omega)
  · intro hsmall
    -- the last place is then 52 places below the leading one
    have heq : lastPlace n d = floorLog2 n d - 52 := by
      rw [lastPlace] at hsmall ⊢
      omega
    refine le_nearestMultiple hd (le_trans (le_of_eq ?_) hlow)
    rw [heq, Nat.cast_pow, Nat.cast_two, ← zpow_natCast, ← zpow_add₀ two_ne_zero]
    congr 1
    omega

/-! ## The largest double -/

/-- The largest finite double. -/
def largest : Rat := ((2 ^ 53 - 1) * 2 ^ 971 : Nat)

theorem largest_eq : largest = (2 ^ 53 - 1) * 2 ^ 971 := by
  rw [largest, Nat.cast_mul, Nat.cast_pow, Nat.cast_two]
  norm_num

theorem largest_pos : 0 < largest := by
  rw [largest_eq]
  exact mul_pos (by norm_num) (pow_pos two_pos 971)

/-- The largest double lies just below a power of two. -/
theorem largest_bounds : (2 : ℚ) ^ (1023 : Int) ≤ largest ∧ largest < 2 ^ (1024 : Int) := by
  have hsplit : ∀ i j : Nat, (2 : ℚ) ^ ((i + j : Nat) : Int) = 2 ^ i * 2 ^ j := by
    intro i j
    rw [zpow_natCast, pow_add]
  have hpow : (0 : ℚ) < 2 ^ 971 := pow_pos two_pos 971
  rw [largest_eq, show (1023 : Int) = ((52 + 971 : Nat) : Int) from rfl,
    show (1024 : Int) = ((53 + 971 : Nat) : Int) from rfl, hsplit, hsplit]
  exact ⟨mul_le_mul_of_nonneg_right (by norm_num) hpow.le,
    mul_lt_mul_of_pos_right (by norm_num) hpow⟩

theorem natCast_le_largest (h : n ≤ 2 ^ 53) : (n : ℚ) ≤ largest := by
  rw [largest, Nat.cast_le]
  exact h.trans (by decide +kernel)

/-- What is not too large to be a double is at most the largest one. -/
theorem scaled_le_largest (hk : k ≤ 2 ^ 53) (hk0 : k ≠ 0) (hfull : -1074 < e → 2 ^ 52 ≤ k)
    (hlead : (k.log2 : Int) + e ≤ 1023) : scaled k e ≤ largest := by
  have hpow : ∀ {a b : Nat} {i : Int}, a ≤ b → e ≤ i → (a : ℚ) * 2 ^ e ≤ b * 2 ^ i := by
    intro a b i hab hei
    have hab' : (a : ℚ) ≤ b := Nat.cast_le.2 hab
    exact mul_le_mul hab' (zpow_le_zpow_right₀ one_le_two hei)
      (zpow_nonneg zero_le_two _) (Nat.cast_nonneg b)
  rw [scaled_eq]
  by_cases he : e ≤ 970
  · calc (k : ℚ) * 2 ^ e ≤ (2 ^ 53 : Nat) * 2 ^ (970 : Int) := hpow hk he
      _ = 2 ^ (1023 : Int) := by
        rw [Nat.cast_pow, Nat.cast_two, ← zpow_natCast, ← zpow_add₀ two_ne_zero]
        rfl
      _ ≤ largest := largest_bounds.1
  · -- then the factor has all its digits, and the leading one is at the last place there is
    have hlog : 52 ≤ k.log2 := (Nat.le_log2 hk0).2 (hfull (by omega))
    have hlt : k < 2 ^ 53 := (Nat.log2_lt hk0).1 (by omega)
    calc (k : ℚ) * 2 ^ e ≤ (2 ^ 53 - 1 : Nat) * 2 ^ (971 : Int) := hpow (by omega) (by omega)
      _ = largest := by
        rw [largest_eq]
        norm_num

/-- A number up to the largest double is not too large. -/
theorem lead_le_of_le_largest (hn : 0 < n) (hd : 0 < d) (h : (n : ℚ) / d ≤ largest)
    (hk0 : nearestMultiple n d (lastPlace n d) ≠ 0) :
    ((nearestMultiple n d (lastPlace n d)).log2 : Int) + lastPlace n d ≤ 1023 := by
  obtain ⟨hlow, -⟩ := floorLog2_spec hn hd
  have hk := (nearestMultiple_lastPlace hn hd).1
  -- its leading place is that of the largest double at most
  have hlead : floorLog2 n d < 1024 := by
    refine (zpow_lt_zpow_iff_right₀ (a := (2 : ℚ)) one_lt_two).1 ?_
    exact (hlow.trans h).trans_lt largest_bounds.2
  have hplace : lastPlace n d ≤ 971 := by
    rw [lastPlace]
    omega
  rcases Int.lt_or_le (lastPlace n d) 971 with hlt | hge
  · have hlog : (nearestMultiple n d (lastPlace n d)).log2 < 54 :=
      (Nat.log2_lt hk0).2 (lt_of_le_of_lt hk (by decide))
    omega
  · have heq : lastPlace n d = 971 := by omega
    have hk' : nearestMultiple n d (lastPlace n d) ≤ 2 ^ 53 - 1 := by
      refine nearestMultiple_le hd (h.trans (le_of_eq ?_))
      rw [heq, largest_eq]
      norm_num
    have hlog : (nearestMultiple n d (lastPlace n d)).log2 < 53 :=
      (Nat.log2_lt hk0).2 (by omega)
    omega

/-! ## Lengths -/

/-- **A finite double,** of either sign. -/
def inRange (x : Double) : Bool := le (.finite (-largest)) x && le x (.finite largest)

/-- **A length:** a finite double that is not negative. -/
def isLength (x : Double) : Bool := le (.finite 0) x && le x (.finite largest)

theorem inRange_iff : x.inRange = true ↔ ∃ p, x.value? = some p ∧ -largest ≤ p ∧ p ≤ largest := by
  have hpos := largest_pos
  rcases x with _ | s | _ | p
  · simp [inRange, le, value?]
  · cases s <;> simp [inRange, le, lt, value?]
  · simp [inRange, le, lt, value?, hpos.le]
  · simp [inRange, le, lt, value?]

theorem isLength_iff : x.isLength = true ↔ ∃ p, x.value? = some p ∧ 0 ≤ p ∧ p ≤ largest := by
  have hpos := largest_pos
  rcases x with _ | s | _ | p
  · simp [isLength, le, value?]
  · cases s <;> simp [isLength, le, lt, value?]
  · simp [isLength, le, lt, value?, hpos.le]
  · simp [isLength, le, lt, value?]

theorem isLength_finite (h0 : 0 ≤ q) (h : q ≤ largest) : (finite q).isLength = true :=
  isLength_iff.2 ⟨q, rfl, h0, h⟩

theorem inRange_of_isLength (h : x.isLength = true) : x.inRange = true := by
  obtain ⟨p, hp, h0, hle⟩ := isLength_iff.1 h
  have hpos := largest_pos
  exact inRange_iff.2 ⟨p, hp, by linarith, hle⟩

theorem isFinite_of_inRange (h : x.inRange = true) : x.isFinite = true := by
  obtain ⟨p, hp, -⟩ := inRange_iff.1 h
  rcases x with _ | _ | _ | _
  · cases hp
  · cases hp
  · rfl
  · rfl

/-- **Rounding a number that is not negative** gives a length, or it was larger than any double. -/
theorem ofRat_nonneg (h0 : 0 ≤ q) :
    (ofRat q).isLength = true ∨ ofRat q = .infinity false ∧ largest < q := by
  have hzero : (finite 0).isLength = true := isLength_finite le_rfl largest_pos.le
  by_cases hnum : q.num = 0
  · rw [ofRat, if_pos hnum]
    exact .inl hzero
  have hnumpos : 0 < q.num := lt_of_le_of_ne (Rat.num_nonneg.2 h0) (Ne.symm hnum)
  have hn : 0 < q.num.natAbs := Int.natAbs_pos.2 hnum
  have hq : (q.num.natAbs : ℚ) / q.den = q := by
    conv_rhs => rw [← Rat.num_div_den q]
    rw [← Int.cast_natCast, Int.natAbs_of_nonneg hnumpos.le]
  rw [ofRat, if_neg hnum]
  simp only [if_neg (not_lt.2 hnumpos.le), decide_eq_false (not_lt.2 hnumpos.le)]
  split
  · exact .inl hzero
  · next hk0 =>
    obtain ⟨hk, hfull⟩ := nearestMultiple_lastPlace hn q.den_pos
    rw [floorLog2_one hk0]
    split
    · next hlead =>
      refine .inr ⟨rfl, ?_⟩
      by_contra hle
      rw [not_lt, ← hq] at hle
      exact absurd (lead_le_of_le_largest hn q.den_pos hle hk0) (by omega)
    · next hlead =>
      refine .inl (isLength_finite ?_ (scaled_le_largest hk hk0 hfull (by omega)))
      rw [scaled_eq]
      exact mul_nonneg (Nat.cast_nonneg _) (zpow_nonneg zero_le_two _)

theorem isLength_ofRat (h0 : 0 ≤ q) (h : q ≤ largest) : (ofRat q).isLength = true :=
  (ofRat_nonneg h0).resolve_right fun hlarge => absurd h (not_le.2 hlarge.2)

/-- Rounding a negative number gives nothing positive. -/
theorem ofRat_neg (h : q < 0) :
    ofRat q = .infinity true ∨ ∃ r, (ofRat q).value? = some r ∧ r ≤ 0 := by
  have hnum : q.num < 0 := Rat.num_neg.2 h
  rw [ofRat, if_neg hnum.ne]
  simp only [if_pos hnum, decide_eq_true hnum]
  split
  · exact .inr ⟨0, rfl, le_rfl⟩
  · split
    · exact .inl rfl
    · refine .inr ⟨_, rfl, ?_⟩
      rw [scaled_eq, Left.neg_nonpos_iff]
      exact mul_nonneg (Nat.cast_nonneg _) (zpow_nonneg zero_le_two _)

/-! ## Arithmetic -/

theorem le_finite_iff {b : ℚ} :
    x.le (.finite b) = true ↔ x = .infinity true ∨ ∃ p, x.value? = some p ∧ p ≤ b := by
  rcases x with _ | s | _ | p
  · simp [le, value?]
  · cases s <;> simp [le, lt, value?]
  · simp [le, lt, value?]
  · simp [le, lt, value?]

theorem ofRat_le_largest (h : q ≤ largest) : (ofRat q).le (.finite largest) = true := by
  rcases lt_or_ge q 0 with hneg | h0
  · rcases ofRat_neg hneg with hinf | ⟨r, hr, hr0⟩
    · exact le_finite_iff.2 (.inl hinf)
    · exact le_finite_iff.2 (.inr ⟨r, hr, hr0.trans largest_pos.le⟩)
  · exact (Bool.and_eq_true_iff.1 (isLength_ofRat h0 h)).2

/-- **Adding a length** to a number gives a length, unless the sum is too large. -/
theorem isLength_add {b c : ℚ} (hb : 0 ≤ b) (hy : y.isLength = true)
    (hlt : y.lt (.finite c) = true) (h : b + c ≤ largest) :
    ((finite b).add y).isLength = true := by
  obtain ⟨r, hr, hr0, -⟩ := isLength_iff.1 hy
  rcases y with _ | _ | _ | r'
  · cases hr
  · cases hr
  · -- adding a zero changes nothing
    have hc : 0 < c := by simpa [lt] using hlt
    exact isLength_finite hb (by linarith)
  · obtain rfl := Option.some.inj hr
    have hc : r' < c := by simpa [lt] using hlt
    exact isLength_ofRat (by linarith) (by linarith)

/-- Taking away a length does not lead above the range. -/
theorem sub_le_largest (hx : x.inRange = true) (hy : y.isLength = true) :
    (x.sub y).le (.finite largest) = true := by
  obtain ⟨p, hp, -, hple⟩ := inRange_iff.1 hx
  obtain ⟨r, hr, hr0, -⟩ := isLength_iff.1 hy
  have hx' := (Bool.and_eq_true_iff.1 hx).2
  have hzero : ∀ t : ℚ, t ≤ 0 → (finite t).le (.finite largest) = true := fun t ht =>
    le_finite_iff.2 (.inr ⟨t, rfl, ht.trans largest_pos.le⟩)
  rw [sub]
  -- a zero is taken away as one of the other sign
  rcases y with _ | _ | _ | r'
  · cases hr
  · cases hr
  · rcases x with _ | _ | _ | p'
    · cases hp
    · cases hp
    · exact hzero 0 le_rfl
    · obtain rfl := Option.some.inj hp
      exact ofRat_le_largest (by simpa using hple)
  · obtain rfl := Option.some.inj hr
    rw [neg]
    split
    · rcases x with _ | _ | _ | p'
      · cases hp
      · cases hp
      · exact hx'
      · exact hx'
    · rcases x with _ | _ | _ | p'
      · cases hp
      · cases hp
      · exact hzero _ (by linarith)
      · obtain rfl := Option.some.inj hp
        exact ofRat_le_largest (by linarith)

/-- What is cut off at zero is a length. -/
theorem isLength_max_zero (h : x.le (.finite largest) = true) :
    (x.max (.finite 0)).isLength = true := by
  have hzero : (finite 0).isLength = true := isLength_finite le_rfl largest_pos.le
  rw [max]
  rcases le_finite_iff.1 h with rfl | ⟨p, hp, hle⟩
  · exact hzero
  · split
    · exact hzero
    · next hlt =>
      refine isLength_iff.2 ⟨p, hp, ?_, hle⟩
      rcases x with _ | _ | _ | p'
      · cases hp
      · cases hp
      · obtain rfl := Option.some.inj hp
        exact le_rfl
      · obtain rfl := Option.some.inj hp
        simpa [lt] using hlt

/-- **What is left of a length** when another one is taken away. -/
theorem isLength_remaining (hx : x.inRange = true) (hy : y.isLength = true) :
    ((x.sub y).max (.finite 0)).isLength = true :=
  isLength_max_zero (sub_le_largest hx hy)

theorem inRange_min (hx : x.inRange = true) (hy : y.inRange = true) :
    (x.min y).inRange = true := by
  rw [min]
  split
  · exact hy
  · exact hx

/-- **A length with some places** is a length: the largest double is whole. -/
theorem isLength_roundPlaces (places : Nat) (h : x.isLength = true) :
    (x.roundPlaces places).isLength = true := by
  obtain ⟨p, hp, h0, hle⟩ := isLength_iff.1 h
  rcases x with _ | _ | _ | p'
  · cases hp
  · cases hp
  · exact h
  obtain rfl := Option.some.inj hp
  have hunit : 0 < Nat.pow 10 places := Nat.pow_pos (by decide)
  have hnum : 0 ≤ p'.num := Rat.num_nonneg.2 h0
  rw [roundPlaces]
  simp only [if_neg (not_lt.2 hnum)]
  have hden : (0 : ℚ) < p'.den := Nat.cast_pos.2 p'.den_pos
  have hunit' : (0 : ℚ) < (Nat.pow 10 places : Nat) := Nat.cast_pos.2 hunit
  -- the largest double is a multiple of every unit, so no number up to it is rounded beyond it
  have hk : roundHalfEven (p'.num.natAbs * Nat.pow 10 places) p'.den ≤
      (2 ^ 53 - 1) * 2 ^ 971 * Nat.pow 10 places := by
    refine roundHalfEven_le p'.den_pos ?_
    have hle' : (p'.num.natAbs : ℚ) ≤ ((2 ^ 53 - 1) * 2 ^ 971 : Nat) * p'.den := by
      rw [← div_le_iff₀ hden, ← Int.cast_natCast, Int.natAbs_of_nonneg hnum, Rat.num_div_den]
      exact hle
    have hle'' : p'.num.natAbs ≤ (2 ^ 53 - 1) * 2 ^ 971 * p'.den := by exact_mod_cast hle'
    calc p'.num.natAbs * Nat.pow 10 places
        ≤ (2 ^ 53 - 1) * 2 ^ 971 * p'.den * Nat.pow 10 places := Nat.mul_le_mul_right _ hle''
      _ = (2 ^ 53 - 1) * 2 ^ 971 * Nat.pow 10 places * p'.den := Nat.mul_right_comm ..
  rw [ofRatio, Rat.mkRat_eq_div]
  refine isLength_ofRat (div_nonneg (Nat.cast_nonneg _) hunit'.le) ?_
  rw [div_le_iff₀ hunit', largest, Int.cast_natCast, ← Nat.cast_mul, Nat.cast_le]
  exact hk

/-! ## Numerals -/

/-- **What a numeral without a sign stands for:** a length, or something larger than any. -/
theorem decimalValue_cases (digits : List Char) (exponent : Int) :
    (decimalValue false digits exponent).isLength = true ∨
      decimalValue false digits exponent = .infinity false := by
  have hzero : (finite 0).isLength = true := isLength_finite le_rfl largest_pos.le
  have hratio : ∀ n d : Nat, (ofRatio n d).isLength = true ∨ ofRatio n d = .infinity false := by
    intro n d
    rw [ofRatio, Rat.mkRat_eq_div, Int.cast_natCast]
    exact (ofRat_nonneg (div_nonneg (Nat.cast_nonneg n) (Nat.cast_nonneg d))).imp_right And.left
  simp only [decimalValue, Bool.false_eq_true, if_false]
  split
  · exact .inl hzero
  · split
    · exact .inr rfl
    · split
      · exact .inl hzero
      · split
        · exact hratio _ _
        · exact hratio _ _

end ClipScript.Double
