/-
# The characters of numerals

A number in a filter is written with digits, signs, a point and the letter of an exponent,
and with nothing else. That goes for whole numbers and for durations alike, however many
digits a duration needs.
-/
import ClipScript.Filter.Building
import ClipScript.Proofs.Directives.Comments

set_option autoImplicit false

namespace ClipScript

namespace Number

/-- A character of a numeral. -/
def isNumeralChar (c : Char) : Bool :=
  c.isDigit || c = '-' || c = '+' || c = '.' || c = 'e'

/-- **A numeral:** a text of such characters. -/
def Numeral (cs : List Char) : Prop := ∀ c ∈ cs, isNumeralChar c = true

theorem Numeral.nil : Numeral [] := by
  intro c hc
  cases hc

theorem Numeral.cons {c : Char} {cs : List Char} (hc : isNumeralChar c = true) (h : Numeral cs) :
    Numeral (c :: cs) := by
  intro d hd
  rcases List.mem_cons.1 hd with rfl | hd
  · exact hc
  · exact h d hd

theorem Numeral.append {cs ds : List Char} (hcs : Numeral cs) (hds : Numeral ds) :
    Numeral (cs ++ ds) := by
  intro c hc
  rcases List.mem_append.1 hc with hc | hc
  · exact hcs c hc
  · exact hds c hc

/-- Some of the characters of a numeral are one. -/
theorem Numeral.sublist {cs ds : List Char} (h : Numeral ds) (hsub : cs.Sublist ds) : Numeral cs :=
  fun c hc => h c (hsub.subset hc)

/-! ## Whole numbers -/

theorem numeral_toDigits (n : Nat) : Numeral (Nat.toDigits 10 n) := by
  intro c hc
  have hdigit := Nat.isDigit_of_mem_toDigits (by decide) (by decide) hc
  unfold isNumeralChar
  rw [hdigit]
  rfl

theorem numeral_zeros (n : Nat) : Numeral (List.replicate n '0') := by
  intro c hc
  rw [List.eq_of_mem_replicate hc]
  decide

theorem numeral_natToString (n : Nat) : Numeral (toString n).toList := by
  rw [show (toString n).toList = Nat.toDigits 10 n from Nat.toList_repr]
  exact numeral_toDigits n

theorem numeral_toString (n : Int) : Numeral (toString n).toList := by
  cases n with
  | ofNat k => exact numeral_natToString k
  | negSucc k =>
    have htext : (toString (Int.negSucc k)).toList = '-' :: Nat.toDigits 10 (k + 1) := by
      show ("-" ++ Nat.repr (k + 1)).toList = _
      rw [String.toList_append, Nat.toList_repr]
      rfl
    rw [htext]
    exact .cons (by decide) (numeral_toDigits (k + 1))

theorem numeral_writeInt (n : Int) : Gives (fun t => Numeral t.toList) (writeInt n) := by
  unfold writeInt
  split
  · intro t ht
    cases ht
  · exact .ok (numeral_toString n)

/-! ## Durations -/

/-- The digits of a double are those of some whole number, less the zeros at the end. -/
theorem numeral_searchDigits (i : Interval) (exponent : Int) (n fuel : Nat) :
    Numeral (searchDigits i exponent n fuel).digits := by
  have htrim : ∀ m : Nat, Numeral (trimZeros (Nat.toDigits 10 m)) := by
    intro m
    have hrest : (Nat.toDigits 10 m).reverse.dropWhile (· == '0') <:+
        (Nat.toDigits 10 m).reverse := List.dropWhile_suffix _
    intro c hc
    apply numeral_toDigits m
    rw [trimZeros, List.mem_reverse] at hc
    exact List.mem_reverse.1 (hrest.subset hc)
  induction fuel generalizing n with
  | zero => exact htrim _
  | succ fuel ih =>
    rw [searchDigits]
    split
    · exact htrim _
    · exact ih (n + 1)

/-- **The layout of a duration** adds zeros, signs, a point and an exponent. -/
theorem numeral_durationLayout {x : Digits} (h : Numeral x.digits) :
    Numeral (durationLayout.text x) := by
  have htake : ∀ n, Numeral (x.digits.take n) := fun n => h.sublist (List.take_sublist n _)
  have hdrop : ∀ n, Numeral (x.digits.drop n) := fun n => h.sublist (List.drop_sublist n _)
  simp only [Layout.text]
  by_cases hexponent : x.point - 1 < durationLayout.lowest ∨ durationLayout.highest ≤ x.point - 1
  · -- one digit, the fraction if there is one, and the exponent
    have hwidth : Numeral (padded durationLayout.exponentWidth (x.point - 1).natAbs) :=
      .append (numeral_zeros _) (numeral_toDigits _)
    have hsign : isNumeralChar (if x.point - 1 < 0 then '-' else '+') = true := by
      split <;> decide
    have hletter : isNumeralChar 'e' = true := by decide
    rw [if_pos hexponent]
    refine .append (.append (htake 1) ?_) (.cons hletter (.cons hsign hwidth))
    split
    · exact .nil
    · exact .cons (by decide) (hdrop 1)
  · rw [if_neg hexponent]
    by_cases hsmall : x.point ≤ 0
    · rw [if_pos hsmall]
      exact .cons (by decide) (.cons (by decide) (.append (numeral_zeros _) h))
    · rw [if_neg hsmall]
      by_cases hwhole : x.digits.length ≤ x.point.toNat
      · have hend : Numeral durationLayout.wholeEnd.toList :=
          .cons (by decide) (.cons (by decide) .nil)
        rw [if_pos hwhole]
        exact .append (.append h (numeral_zeros _)) hend
      · rw [if_neg hwhole]
        exact .append (htake _) (.cons (by decide) (hdrop _))

theorem numeral_magnitudeText (q : Rat) : Numeral (Double.magnitudeText q) :=
  numeral_durationLayout (numeral_searchDigits _ _ _ _)

/-- **A finite double** is written as a numeral. -/
theorem numeral_text (q : Rat) : Numeral (Double.finite q).text.toList := by
  rw [Double.text]
  by_cases hzero : q.num = 0
  · have hchars : Numeral "0.0".toList :=
      .cons (by decide) (.cons (by decide) (.cons (by decide) .nil))
    rw [if_pos hzero]
    exact hchars
  · rw [if_neg hzero]
    by_cases hnegative : q.num < 0
    · rw [if_pos hnegative, String.toList_ofList]
      exact .cons (by decide) (numeral_magnitudeText q)
    · rw [if_neg hnegative, String.toList_ofList]
      exact numeral_magnitudeText q

end Number

/-- **A duration in a filter** is a numeral. -/
theorem numeral_formatNumber (x : Double) :
    Gives (fun t => Number.Numeral t.toList) (formatNumber x) := by
  refine .bind fun n hn => .ok ?_
  cases x with
  | nan => cases hn
  | infinity negative => cases hn
  | negativeZero => exact Number.numeral_toString n
  | finite q =>
    split
    · exact Number.numeral_toString n
    · exact Number.numeral_text q

end ClipScript
