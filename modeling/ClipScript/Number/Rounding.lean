/-
# Rounding exact quotients

Durations are computed exactly and rounded once, so that every number the
library prints is the nearest one its format has. Three questions about a
quotient `n / d` of natural numbers are answered here without leaving the
natural numbers: the nearest whole number (a half goes to the even neighbour),
the power of two at or below it, and the power of ten at or below it.
-/

set_option autoImplicit false

namespace ClipScript.Number

/-! ## The nearest whole number -/

/-- **Round half even:** the whole number nearest to `n / d`; of two equally near ones the
even one. -/
def roundHalfEven (n d : Nat) : Nat :=
  let q := n / d
  let r := n % d
  if 2 * r < d then q
  else if d < 2 * r then q + 1
  else if q % 2 = 0 then q else q + 1

/-- A multiple is its own nearest whole number. -/
theorem roundHalfEven_mul (k d : Nat) (hd : 0 < d) : roundHalfEven (k * d) d = k := by
  simp [roundHalfEven, Nat.mul_div_cancel _ hd, hd]

/-- Rounding never moves by more than half a unit. -/
theorem roundHalfEven_within (n d : Nat) (hd : 0 < d) :
    2 * n ≤ 2 * (roundHalfEven n d * d) + d ∧ 2 * (roundHalfEven n d * d) ≤ 2 * n + d := by
  have hdiv : d * (n / d) + n % d = n := Nat.div_add_mod n d
  have hmod : n % d < d := Nat.mod_lt n hd
  have hq : n / d * d = d * (n / d) := Nat.mul_comm _ _
  have hq1 : (n / d + 1) * d = d * (n / d) + d := by rw [Nat.add_mul, hq, Nat.one_mul]
  unfold roundHalfEven
  dsimp only
  split
  · omega
  · split
    · omega
    · split <;> omega

/-! ## Powers at or below a quotient -/

/-- Whether `b ^ k ≤ n / d`, for an exponent of either sign. -/
def powLe (b : Nat) (k : Int) (n d : Nat) : Bool :=
  match k with
  | .ofNat j => Nat.pow b j * d ≤ n
  | .negSucc j => d ≤ n * Nat.pow b (j + 1)

/-- The largest `k` with `2 ^ k ≤ n / d`, for positive `n` and `d`. The lengths of the two
numbers in binary leave two candidates. -/
def floorLog2 (n d : Nat) : Int :=
  let k : Int := (n.log2 : Int) - (d.log2 : Int)
  if powLe 2 k n d then k else k - 1

/-- The largest `k` with `10 ^ k ≤ n / d`, for positive `n` and `d`. The binary logarithm
leaves a few candidates. -/
def floorLog10 (n d : Nat) : Int :=
  let k : Int := floorLog2 n d * 30103 / 100000
  if powLe 10 (k + 1) n d then k + 1
  else if powLe 10 k n d then k
  else k - 1

end ClipScript.Number
