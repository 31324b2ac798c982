/-
# Reading plain numerals

The directives only let plain numerals through: a run of digits, or two runs with a
point between them. None of what makes reading a number delicate can occur in them.
There is no blank to strip, no sign, no underscore, and no word for infinity, since
none of these is a digit. So such a numeral is always read, with one exception: a
whole numeral with more digits than `digitLimit` is refused as too long. Numbers that
would need more are not written either.
-/
import ClipScript.Number.Reading
import ClipScript.Proofs.Number.Range
import Mathlib.Data.List.TakeWhile

set_option autoImplicit false

namespace ClipScript.Number

open Text

/-! ## Digits are nothing else -/

/-- A test that all digits of the table pass is passed by every digit. -/
theorem forall_isDigit {P : Char → Bool}
    (h : (digitZeros.all fun z => (List.range 10).all fun k => P (Char.ofNat (z + k))) = true)
    {c : Char} (hc : isDigit c = true) : P c = true := by
  rw [isDigit, digitValue?, Option.isSome_map, Option.isSome_iff_exists] at hc
  obtain ⟨z, hz⟩ := hc
  have hmem := List.mem_of_find?_eq_some hz
  have hrange := List.find?_some hz
  rw [Bool.and_eq_true, decide_eq_true_eq, decide_eq_true_eq] at hrange
  -- a digit is one of the ten characters from its zero on
  have htest := List.all_eq_true.1 (List.all_eq_true.1 h z hmem) (c.toNat - z)
    (List.mem_range.2 (by omega))
  rwa [show z + (c.toNat - z) = c.toNat by omega, Char.ofNat_toNat] at htest

theorem isNumberBlank_of_isDigit {c : Char} (hc : isDigit c = true) : isNumberBlank c = false := by
  have h := forall_isDigit (P := fun c => !isNumberBlank c) (by decide +kernel) hc
  simpa using h

theorem toLower_of_isDigit {c : Char} (hc : isDigit c = true) : c.toLower = c := by
  have h := forall_isDigit (P := fun c => c.toLower == c) (by decide +kernel) hc
  simpa using h

/-- A digit differs from any character that is no digit. -/
theorem ne_of_isDigit {c d : Char} (hc : isDigit c = true) (hd : isDigit d = false) : c ≠ d := by
  rintro rfl
  rw [hc] at hd
  cases hd

/-- A run of digits: its characters, and that it has one. -/
theorem isDigits_iff {cs : List Char} :
    isDigits cs = true ↔ cs ≠ [] ∧ ∀ c ∈ cs, isDigit c = true := by
  rw [isDigits, Bool.and_eq_true, Bool.not_eq_true', List.isEmpty_eq_false_iff,
    List.all_eq_true]

/-! ## Texts without anything around them -/

/-- Nothing is stripped from a text whose characters all stay. -/
theorem strip_eq_self {p : Char → Bool} {cs : List Char} (h : ∀ c ∈ cs, p c = false) :
    strip p cs = cs := by
  have hdrop : ∀ ds : List Char, (∀ c ∈ ds, p c = false) → ds.dropWhile p = ds := by
    intro ds hds
    rcases ds with _ | ⟨d, ds⟩
    · rfl
    · rw [List.dropWhile_cons_of_neg (by simp [hds d (by simp)])]
  rw [strip, hdrop cs h, hdrop cs.reverse fun c hc => h c (List.mem_reverse.1 hc),
    List.reverse_reverse]

/-- A text that starts with a digit has no sign. -/
theorem splitSign_of_isDigit {c : Char} (cs : List Char) (hc : isDigit c = true) :
    splitSign (c :: cs) = (false, c :: cs) := by
  unfold splitSign
  split
  · next h => exact absurd (List.cons.inj h).1 (ne_of_isDigit hc (by decide))
  · next h => exact absurd (List.cons.inj h).1 (ne_of_isDigit hc (by decide))
  · rfl

theorem underscoresFit_of_forall_ne (before : Bool) {cs : List Char} (h : ∀ c ∈ cs, c ≠ '_') :
    underscoresFit before cs = true := by
  induction cs generalizing before with
  | nil => rfl
  | cons c cs ih =>
    have hc : c ≠ '_' := h c (by simp)
    -- without an underscore in front, the test only goes on
    rw [underscoresFit.eq_4 _ _ _ (fun _ _ e _ => hc e) (fun e _ => hc e)]
    exact ih _ fun d hd => h d (by simp [hd])

/-! ## Whole numerals -/

/-- **Reading a run of digits behind a sign,** if there is one, fails only when there are too many
of them. -/
theorem readInt_of_splitSign {cs ds : List Char} {negative : Bool}
    (hblank : ∀ c ∈ cs, isNumberBlank c = false) (hsign : splitSign cs = (negative, ds))
    (h : isDigits ds = true) :
    readInt (String.ofList cs) =
      if ds.length > digitLimit then .error (.tooManyDigits ds.length)
      else .ok (if negative then -(digitsValue ds : Int) else digitsValue ds) := by
  obtain ⟨hne, hall⟩ := isDigits_iff.1 h
  -- no blank and no underscore: what is read is all digits
  have hrun : ds.takeWhile (fun c => isDigit c || c == '_') = ds := by
    rw [List.takeWhile_eq_self_iff]
    intro d hd
    rw [hall d hd, Bool.true_or]
  have hdigits : ds.filter isDigit = ds := List.filter_eq_self.2 hall
  have hfit : underscoresFit false ds = true :=
    underscoresFit_of_forall_ne false fun d hd => ne_of_isDigit (hall d hd) (by decide)
  unfold readInt
  simp only [String.toList_ofList, strip_eq_self hblank, hsign, hrun, hdigits, hfit]
  simp [hne]

/-- **Reading a run of digits** fails only when there are too many of them. -/
theorem readInt_of_isDigits {cs : List Char} (h : isDigits cs = true) :
    readInt (String.ofList cs) =
      if cs.length > digitLimit then .error (.tooManyDigits cs.length)
      else .ok (digitsValue cs : Int) := by
  obtain ⟨hne, hall⟩ := isDigits_iff.1 h
  obtain ⟨c, ds, rfl⟩ := List.exists_cons_of_ne_nil hne
  exact readInt_of_splitSign (fun d hd => isNumberBlank_of_isDigit (hall d hd))
    (splitSign_of_isDigit ds (hall c List.mem_cons_self)) h

/-! ## Decimal numerals -/

/-- A plain decimal numeral: digits, and perhaps a point and more digits. -/
def isPlainDecimal (cs : List Char) : Bool :=
  isDigits (cs.takeWhile isDigit) &&
    match cs.dropWhile isDigit with
    | [] => true
    | '.' :: fraction => isDigits fraction
    | _ => false

/-- The characters of a plain decimal numeral are digits and points, and the first is a digit. -/
theorem isPlainDecimal_chars {cs : List Char} (h : isPlainDecimal cs = true) :
    (∃ c ds, cs = c :: ds ∧ isDigit c = true) ∧ ∀ c ∈ cs, isDigit c = true ∨ c = '.' := by
  obtain ⟨hwhole, hrest⟩ := Bool.and_eq_true_iff.1 h
  obtain ⟨hne, hdigits⟩ := isDigits_iff.1 hwhole
  have hsplit := List.takeWhile_append_dropWhile (p := isDigit) (l := cs)
  refine ⟨?_, ?_⟩
  · obtain ⟨c, ds, hcs⟩ := List.exists_cons_of_ne_nil hne
    refine ⟨c, ds ++ cs.dropWhile isDigit, ?_, hdigits c (by simp [hcs])⟩
    rw [← List.cons_append, ← hcs, hsplit]
  · intro c hc
    rw [← hsplit, List.mem_append] at hc
    rcases hc with hc | hc
    · exact .inl (hdigits c hc)
    · -- behind the digits there is nothing, or a point and more digits
      split at hrest
      · next hd => simp [hd] at hc
      · next fraction hd =>
        rw [hd, List.mem_cons] at hc
        rcases hc with rfl | hc
        · exact .inr rfl
        · exact .inl ((isDigits_iff.1 hrest).2 c hc)
      · cases hrest

/-- **Reading a plain decimal numeral:** its digits before and behind the point are read as one
run, with as many places as there are behind it. -/
theorem readDecimal_of_isPlainDecimal {cs : List Char} (h : isPlainDecimal cs = true) :
    readDecimal (String.ofList cs) =
      .ok (decimalValue false (cs.takeWhile isDigit ++ (cs.dropWhile isDigit).tail)
        (0 - (cs.dropWhile isDigit).tail.length)) := by
  obtain ⟨⟨c, ds, rfl, hc⟩, hall⟩ := isPlainDecimal_chars h
  have hpoint : isNumberBlank '.' = false := by decide
  have hstrip : strip isNumberBlank (c :: ds) = c :: ds := by
    apply strip_eq_self
    intro d hd
    rcases hall d hd with hd | rfl
    · exact isNumberBlank_of_isDigit hd
    · exact hpoint
  have hunder : ∀ d ∈ c :: ds, d ≠ '_' := by
    intro d hd
    rcases hall d hd with hd | rfl
    · exact ne_of_isDigit hd (by decide)
    · decide
  have hfilter : (c :: ds).filter (· != '_') = c :: ds :=
    List.filter_eq_self.2 fun d hd => by simpa using hunder d hd
  have hsign := splitSign_of_isDigit ds hc
  have hfit := underscoresFit_of_forall_ne false hunder
  -- no word starts with a digit
  have hword : ∀ (l : Char) (ls : List Char), isDigit l = false →
      (c :: ds).map Char.toLower ≠ l :: ls := by
    intro l ls hl he
    rw [List.map_cons, toLower_of_isDigit hc] at he
    exact ne_of_isDigit hc hl (List.cons.inj he).1
  have hmagnitude : readMagnitude false (c :: ds) =
      some (decimalValue false
        ((c :: ds).takeWhile isDigit ++ ((c :: ds).dropWhile isDigit).tail)
        (0 - ((c :: ds).dropWhile isDigit).tail.length)) := by
    obtain ⟨hwhole, hrest⟩ := Bool.and_eq_true_iff.1 h
    have hwholene : ((c :: ds).takeWhile isDigit).isEmpty = false :=
      List.isEmpty_eq_false_iff.2 (isDigits_iff.1 hwhole).1
    have hinf : "inf".toList = ['i', 'n', 'f'] := rfl
    have hinfinity : "infinity".toList = ['i', 'n', 'f', 'i', 'n', 'i', 't', 'y'] := rfl
    have hnan : "nan".toList = ['n', 'a', 'n'] := rfl
    have hi := fun ls => hword 'i' ls (by decide)
    have hn := fun ls => hword 'n' ls (by decide)
    -- a numeral without a word and an exponent is the two runs of digits
    unfold readMagnitude
    simp only [hinf, hinfinity, hnan, hi, hn, or_self, if_false]
    split at hrest
    · next hd =>
      simp only [hd, hwholene, readExponent]
      rfl
    · next fraction hd =>
      have hfraction := (isDigits_iff.1 hrest).2
      simp only [hd, hwholene, List.takeWhile_eq_self_iff.2 hfraction,
        List.dropWhile_eq_nil_iff.2 hfraction, readExponent, List.tail_cons]
      rfl
    · cases hrest
  simp only [readDecimal, String.toList_ofList, hstrip, hfilter, hsign, hfit, hmagnitude]
  rfl

/-- **A plain decimal numeral** stands for a length, or for infinity if it is too large. -/
theorem readDecimal_cases {cs : List Char} (h : isPlainDecimal cs = true) :
    ∃ x, readDecimal (String.ofList cs) = .ok x ∧ (x.isLength = true ∨ x = .infinity false) :=
  ⟨_, readDecimal_of_isPlainDecimal h, Double.decimalValue_cases _ _⟩

theorem isPlainDecimal_of_isDigits {cs : List Char} (h : isDigits cs = true) :
    isPlainDecimal cs = true := by
  have hdigits := (isDigits_iff.1 h).2
  rw [isPlainDecimal, List.takeWhile_eq_self_iff.2 hdigits, List.dropWhile_eq_nil_iff.2 hdigits, h]
  rfl

theorem le_digitsValue_append (cs ds : List Char) :
    digitsValue cs ≤ digitsValue (cs ++ ds) := by
  induction ds generalizing cs with
  | nil => rw [List.append_nil]
  | cons d ds ih =>
    have hstep : digitsValue (cs ++ [d]) = 10 * digitsValue cs + (digitValue? d).getD 0 := by
      rw [digitsValue, List.foldl_append]
      rfl
    have hmore := ih (cs ++ [d])
    rw [List.append_assoc, List.singleton_append] at hmore
    omega

/-- **A numeral of more than four hundred digits** without a zero in front is larger than any
double. -/
theorem readDecimal_long {c : Char} {ds : List Char} (h : isDigits (c :: ds) = true)
    (hzero : digitValue? c ≠ some 0) (hlong : 400 < (c :: ds).length) :
    readDecimal (String.ofList (c :: ds)) = .ok (.infinity false) := by
  have hdigits := (isDigits_iff.1 h).2
  obtain ⟨d, hd⟩ := Option.isSome_iff_exists.1 (hdigits c List.mem_cons_self)
  have hvalue : digitsValue (c :: ds) ≠ 0 := by
    have hle := le_digitsValue_append [c] ds
    have hsingle : digitsValue [c] = d := by
      rw [digitsValue, List.foldl_cons, List.foldl_nil, hd, Option.getD_some, Nat.mul_zero,
        Nat.zero_add]
    rw [hsingle, List.singleton_append] at hle
    rintro heq
    rw [heq, Nat.le_zero] at hle
    exact hzero (by rw [hd, hle])
  have hsize : ((c :: ds).dropWhile fun c => decide (digitValue? c = some 0)) = c :: ds := by
    rw [List.dropWhile_cons_of_neg]
    simpa using hzero
  rw [readDecimal_of_isPlainDecimal (isPlainDecimal_of_isDigits h),
    List.takeWhile_eq_self_iff.2 hdigits, List.dropWhile_eq_nil_iff.2 hdigits, List.tail_nil,
    List.append_nil]
  have hlarge : ((c :: ds).length : Int) + (0 - ([] : List Char).length) > 400 := by
    rw [List.length_nil]
    omega
  simp only [decimalValue, hsize, if_neg hvalue, if_pos hlarge]
  rfl

/-! ## Writing -/

/-- A number that can be written is written as itself. -/
theorem writeInt_ok_iff {n : Int} {t : String} :
    writeInt n = .ok t ↔ t = toString n ∧ n.natAbs < 10 ^ digitLimit := by
  have hlimit : (Nat.toDigits 10 n.natAbs).length ≤ digitLimit ↔ n.natAbs < 10 ^ digitLimit :=
    Nat.length_toDigits_le_iff (by decide) (by decide)
  rw [writeInt]
  split
  · next hlong =>
    refine ⟨by rintro ⟨⟩, fun h => ?_⟩
    exact absurd (hlimit.2 h.2) (by omega)
  · next hshort =>
    rw [Except.ok.injEq, eq_comm, ← hlimit]
    exact ⟨fun h => ⟨h, by omega⟩, And.left⟩

/-- Writing fails for nothing but too many digits. -/
theorem writeInt_error_iff {n : Int} {f : Fault} :
    writeInt n = .error f ↔ f = .numeralTooLong ∧ 10 ^ digitLimit ≤ n.natAbs := by
  have hok := @writeInt_ok_iff n
  rw [writeInt] at hok ⊢
  split
  · next hlong =>
    have hnot := (hok (t := toString n)).not.1 (by rw [if_pos hlong]; nofun)
    rw [not_and, Nat.not_lt] at hnot
    rw [Except.error.injEq, eq_comm]
    exact ⟨fun h => ⟨h, hnot rfl⟩, And.left⟩
  · next hshort =>
    have hlt := (hok.1 (if_neg hshort)).2
    exact ⟨nofun, fun h => absurd h.2 (Nat.not_le.2 hlt)⟩

end ClipScript.Number
