/-
# Whole numbers as doubles

A whole number below `2 ^ 53` is a double, so rounding keeps it: its leading place is
at most 52 places above the last one a double has, and scaling it up to that place is
exact. Times in whole seconds are therefore computed without any error, and reading a
valid time never goes beyond the range of doubles.
-/
import ClipScript.Number.Reading
import Mathlib.Data.Rat.Cast.Order
import Mathlib.Tactic.FieldSimp
import Mathlib.Tactic.Ring

set_option autoImplicit false

namespace ClipScript.Number

/-- The binary logarithm of a whole number. -/
theorem floorLog2_one {n : Nat} (hn : n ≠ 0) : floorLog2 n 1 = n.log2 := by
  have hle : powLe 2 (n.log2 : Int) n 1 = true := by
    have hpow : Nat.pow 2 n.log2 ≤ n := Nat.log2_self_le hn
    show decide (Nat.pow 2 n.log2 * 1 ≤ n) = true
    rw [Nat.mul_one, decide_eq_true_eq]
    exact hpow
  have hone : Nat.log2 1 = 0 := by decide
  simp only [floorLog2, hone, Int.ofNat_zero, Int.sub_zero]
  rw [if_pos (by simpa using hle)]

theorem roundHalfEven_one (n : Nat) : roundHalfEven n 1 = n := by
  simpa using roundHalfEven_mul n 1 Nat.one_pos

end ClipScript.Number

namespace ClipScript.Double

open ClipScript.Number

/-- **Rounding keeps whole numbers below `2 ^ 53`.** -/
theorem ofRat_natCast {n : Nat} (h : n < 2 ^ 53) : ofRat (n : Rat) = .finite (n : Rat) := by
  rcases Nat.eq_zero_or_pos n with rfl | hpos
  · rfl
  have hn : n ≠ 0 := Nat.pos_iff_ne_zero.1 hpos
  have hlog : n.log2 < 53 := (Nat.log2_lt hn).2 h
  have hnum : ((n : Rat)).num = (n : Int) := Rat.num_natCast n
  have hden : ((n : Rat)).den = 1 := Rat.den_natCast n
  -- the last place of a double stands 52 binary places behind the first
  have hlast : lastPlace n 1 = (n.log2 : Int) - 52 := by
    rw [lastPlace, floorLog2_one hn]
    omega
  have hnonneg : ¬ ((n : Int) < 0) := by omega
  have hnumne : ¬ ((n : Int) = 0) := by omega
  -- what is left to show of the last place and the factor that go with it
  have hround : ∀ (e : Int) (k : Nat), (n.log2 : Int) - 52 = e → nearestMultiple n 1 e = k →
      k ≠ 0 → (k.log2 : Int) + e ≤ 1023 → scaled k e = (n : Rat) →
        ofRat (n : Rat) = .finite (n : Rat) := by
    intro e k he hk hkne hklog hscaled
    rw [ofRat, hnum, hden]
    simp only [if_neg hnumne, Int.natAbs_natCast, hlast, he, hk, if_neg hkne, floorLog2_one hkne,
      if_neg (show ¬ (k.log2 : Int) + e > 1023 by omega), hnonneg, if_false, hscaled]
  rcases Nat.lt_or_ge n.log2 52 with hsmall | hlarge
  · -- the last place is below the point, and the factor is the number scaled up
    obtain ⟨j, hj⟩ : ∃ j : Nat, (n.log2 : Int) - 52 = .negSucc j := ⟨51 - n.log2, by omega⟩
    have hjle : j < 52 := by omega
    have hpow : (2 : Nat) ^ (j + 1) ≠ 0 := pow_ne_zero _ (by decide)
    have hkne : n * 2 ^ (j + 1) ≠ 0 := Nat.mul_ne_zero hn hpow
    have hklog : (n * 2 ^ (j + 1)).log2 < 106 := by
      rw [Nat.log2_lt hkne]
      calc n * 2 ^ (j + 1) < 2 ^ 53 * 2 ^ (j + 1) := by gcongr
        _ ≤ 2 ^ 53 * 2 ^ 53 := by gcongr <;> omega
        _ = 2 ^ 106 := by norm_num
    refine hround (.negSucc j) (n * 2 ^ (j + 1)) hj (roundHalfEven_one _) hkne (by omega) ?_
    show mkRat ((n * 2 ^ (j + 1) : Nat) : Int) (2 ^ (j + 1)) = (n : Rat)
    rw [Rat.mkRat_eq_div]
    push_cast
    field_simp
  · -- the last place is that of the ones, and the factor is the number itself
    have hlast : (n.log2 : Int) - 52 = .ofNat 0 := by
      rw [Int.ofNat_eq_natCast]
      omega
    refine hround (.ofNat 0) n hlast ?_ hn (by rw [Int.ofNat_eq_natCast]; omega) ?_
    · show roundHalfEven n (1 * Nat.pow 2 0) = n
      exact roundHalfEven_one n
    · show mkRat ((n * Nat.pow 2 0 : Nat) : Int) 1 = (n : Rat)
      rw [Rat.mkRat_eq_div]
      simp

/-- **Whole numbers below `2 ^ 53` are doubles.** -/
theorem ofInt_natCast {n : Nat} (h : n < 2 ^ 53) : ofInt (n : Int) = .finite (n : Rat) := by
  rw [ofInt, Int.cast_natCast, ofRat_natCast h]

end ClipScript.Double

namespace ClipScript.Number

theorem doubleOfInt_natCast {n : Nat} (h : n < 2 ^ 53) :
    doubleOfInt (n : Int) = .ok (.finite (n : Rat)) := by
  rw [doubleOfInt, Double.ofInt_natCast h]
  rfl

end ClipScript.Number
