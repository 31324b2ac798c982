/-
# Times in whole seconds

The times without a fraction form a small language: one or two digits of seconds, in front of
them perhaps as many of minutes and a colon, and in front of those perhaps any number of hours
and a colon (`HasParts`). Such a text is a time if its parts are within their bounds (`IsTime`).

The language is said here without the way in which times are read: there the form is tested
first, and the parts are then split off again and read by their places. Both come to the same
for texts without a point (`exists_isTime`), and what is read is the number of seconds, without
any error of rounding (`IsTime.read`).
-/
import ClipScript.Proofs.Directives.Conversions

set_option autoImplicit false

namespace ClipScript

open Number Text

/-! ## The language -/

/-- **The form of a time without a fraction:** its hours, its minutes and its seconds. -/
inductive HasParts : List Char → Nat → Nat → Nat → Prop where
  | seconds {sec : List Char} (second : ClockTime.isShort sec = true) :
    HasParts sec 0 0 (digitsValue sec)
  | minutes {min sec : List Char} (minute : ClockTime.isShort min = true)
      (second : ClockTime.isShort sec = true) :
    HasParts (min ++ ':' :: sec) 0 (digitsValue min) (digitsValue sec)
  | hours {hour min sec : List Char} (hour_digits : isDigits hour = true)
      (minute : ClockTime.isShort min = true) (second : ClockTime.isShort sec = true) :
    HasParts (hour ++ ':' :: (min ++ ':' :: sec)) (digitsValue hour) (digitsValue min)
      (digitsValue sec)

/-- **A time in whole seconds.** -/
def IsTime (s : String) (n : Nat) : Prop :=
  ∃ hours minutes seconds, HasParts s.toList hours minutes seconds ∧
    hours < 24 ∧ minutes < 60 ∧ seconds < 60 ∧ n = 3600 * hours + 60 * minutes + seconds

namespace ClockTime

variable {cs : List Char} {t : String} {hours minutes seconds : Nat}

/-! ## Short numerals -/

/-- A short numeral stands for less than a hundred. -/
theorem digitsValue_lt_of_isShort (h : isShort cs = true) : digitsValue cs < 100 := by
  obtain ⟨hds, hlen⟩ := Bool.and_eq_true_iff.1 h
  have hlen := of_decide_eq_true hlen
  have hdigit : ∀ c ∈ cs, (digitValue? c).getD 0 ≤ 9 := by
    intro c hc
    obtain ⟨d, hd⟩ := Option.isSome_iff_exists.1 ((isDigits_iff.1 hds).2 c hc)
    rw [hd]
    exact digitValue?_le_nine hd
  rcases cs with _ | ⟨a, _ | ⟨b, _ | ⟨c, cs⟩⟩⟩
  · decide
  · have ha := hdigit a (by simp)
    simp only [digitsValue, List.foldl_cons, List.foldl_nil]
    omega
  · have ha := hdigit a (by simp)
    have hb := hdigit b (by simp)
    simp only [digitsValue, List.foldl_cons, List.foldl_nil]
    omega
  · simp only [List.length_cons] at hlen
    omega

/-- A whole numeral stands for its number, if that is a double. -/
theorem decimalValue_of_lt (hlen : cs.length ≤ 400) (hlt : digitsValue cs < 2 ^ 53) :
    decimalValue false cs 0 = .finite (digitsValue cs) := by
  have hsize : (cs.dropWhile fun c => decide (digitValue? c = some 0)).length ≤ cs.length :=
    (List.dropWhile_suffix _).length_le
  by_cases hzero : digitsValue cs = 0
  · simp only [decimalValue, hzero]
    rfl
  · -- it is neither too large nor too small to be computed
    have hlarge : ¬ ((cs.dropWhile fun c => decide (digitValue? c = some 0)).length : Int) + 0 >
        400 := by omega
    have hsmall : ¬ ((cs.dropWhile fun c => decide (digitValue? c = some 0)).length : Int) + 0 <
        -400 := by omega
    have hratio : Double.ofRatio (digitsValue cs * Nat.pow 10 (Int.toNat 0)) 1 =
        .finite (digitsValue cs) := by
      rw [Double.ofRatio, ← Double.ofRat_natCast hlt]
      congr 1
      simp [Rat.mkRat_eq_div]
    simp only [decimalValue, if_neg hzero, if_neg hlarge, if_neg hsmall, ge_iff_le, le_refl,
      if_true, hratio]
    rfl

/-- Short numerals are read without an error of rounding. -/
theorem readDecimal_isShort (h : isShort cs = true) :
    readDecimal (String.ofList cs) = .ok (.finite (digitsValue cs)) := by
  obtain ⟨hds, hlen⟩ := Bool.and_eq_true_iff.1 h
  have hlen := of_decide_eq_true hlen
  have hdigits := (isDigits_iff.1 hds).2
  have hlt := digitsValue_lt_of_isShort h
  rw [readDecimal_of_isPlainDecimal (isPlainDecimal_of_isDigits hds),
    List.takeWhile_eq_self_iff.2 hdigits, List.dropWhile_eq_nil_iff.2 hdigits, List.tail_nil,
    List.append_nil, show (0 : Int) - (([] : List Char).length : Int) = 0 from rfl,
    decimalValue_of_lt (by omega) (by omega)]

/-! ## Reading times -/

theorem colon_not_mem_of_isShort (h : isShort cs = true) : ':' ∉ cs :=
  colon_not_mem_of_isDigits (Bool.and_eq_true_iff.1 h).1

theorem isSeconds_of_isShort (h : isShort cs = true) : isSeconds cs = true := by
  have hdigits := (isDigits_iff.1 (Bool.and_eq_true_iff.1 h).1).2
  rw [isSeconds, List.takeWhile_eq_self_iff.2 hdigits, List.dropWhile_eq_nil_iff.2 hdigits]
  exact h

/-- Without a point, seconds are one or two digits. -/
theorem isShort_of_isSeconds (hpoint : '.' ∉ cs) (h : isSeconds cs = true) : isShort cs = true := by
  have hsplit := List.takeWhile_append_dropWhile (p := isDigit) (l := cs)
  rw [isSeconds] at h
  split at h
  · next hd =>
    rw [hd, List.append_nil] at hsplit
    rwa [hsplit] at h
  · next fraction hd =>
    rw [← hsplit, hd] at hpoint
    simp at hpoint
  · cases h

/-- **The form of a time** without a fraction is that of three parts. -/
theorem exists_hasParts (hline : '\n' ∉ t.toList) (hpoint : '.' ∉ t.toList)
    (h : hasForm t = true) : ∃ hours minutes seconds, HasParts t.toList hours minutes seconds := by
  have hjoin : [':'].intercalate (t.toList.splitOn ':') = t.toList := List.intercalate_splitOn ':'
  rw [hasForm, dropLineFeed_eq_self hline] at h
  split at h
  · next sec hsplit =>
    have htext : sec = t.toList := by
      rw [← hjoin, hsplit]
      simp
    rw [← htext] at hpoint ⊢
    exact ⟨_, _, _, .seconds (isShort_of_isSeconds hpoint h)⟩
  · next min sec hsplit =>
    obtain ⟨hmin, hsec⟩ := Bool.and_eq_true_iff.1 h
    have htext : min ++ ':' :: sec = t.toList := by
      rw [← hjoin, hsplit]
      simp
    rw [← htext] at hpoint ⊢
    exact ⟨_, _, _, .minutes hmin (isShort_of_isSeconds (fun hmem => hpoint (by simp [hmem])) hsec)⟩
  · next hour min sec hsplit =>
    obtain ⟨hhourmin, hsec⟩ := Bool.and_eq_true_iff.1 h
    obtain ⟨hhour, hmin⟩ := Bool.and_eq_true_iff.1 hhourmin
    have htext : hour ++ ':' :: (min ++ ':' :: sec) = t.toList := by
      rw [← hjoin, hsplit]
      simp
    rw [← htext] at hpoint ⊢
    exact ⟨_, _, _, .hours hhour hmin
      (isShort_of_isSeconds (fun hmem => hpoint (by simp [hmem])) hsec)⟩
  · cases h

/-- **What is read of a text of the form** are its parts, if they are read at all. -/
theorem eq_of_read?_hasParts (hline : '\n' ∉ t.toList)
    (h : HasParts t.toList hours minutes seconds) {time : Option ClockTime}
    (hread : read? t = .ok time) : time = some ⟨hours, minutes, .finite seconds⟩ := by
  generalize hcs : t.toList = cs at h
  cases h with
  | seconds hsec =>
    have hsplit : t.toList.splitOn ':' = [cs] := by
      rw [hcs, List.splitOn_eq_singleton (colon_not_mem_of_isShort hsec)]
    have hform : hasForm t = true := by
      rw [hasForm, dropLineFeed_eq_self hline, hsplit]
      exact isSeconds_of_isShort hsec
    rw [read?, if_pos hform] at hread
    simp only [hsplit, List.map_cons, List.map_nil, readDecimal_isShort hsec] at hread
    exact (Except.ok.inj hread).symm
  | @minutes min sec hmin hsec =>
    have hsplit : t.toList.splitOn ':' = [min, sec] := by
      rw [hcs, List.splitOn_append_cons_self_of_not_mem (colon_not_mem_of_isShort hmin),
        List.splitOn_eq_singleton (colon_not_mem_of_isShort hsec)]
    have hform : hasForm t = true := by
      rw [hasForm, dropLineFeed_eq_self hline, hsplit]
      simp only [hmin, isSeconds_of_isShort hsec, Bool.and_self]
    rw [read?, if_pos hform] at hread
    simp only [hsplit, List.map_cons, List.map_nil, readDecimal_isShort hsec,
      readInt_isShort hmin] at hread
    exact (Except.ok.inj hread).symm
  | @hours hour min sec hhour hmin hsec =>
    have hsplit : t.toList.splitOn ':' = [hour, min, sec] :=
      splitOn_time hcs hhour hmin (isSeconds_of_isShort hsec)
    have hform : hasForm t = true := by
      rw [hasForm, dropLineFeed_eq_self hline, hsplit]
      simp only [hhour, hmin, isSeconds_of_isShort hsec, Bool.and_self]
    rw [read?, if_pos hform] at hread
    simp only [hsplit, List.map_cons, List.map_nil, readDecimal_isShort hsec,
      readInt_isShort hmin, readInt_of_isDigits hhour] at hread
    -- too many digits of hours are not read
    split at hread
    · cases hread
    · exact (Except.ok.inj hread).symm

theorem inBounds_iff :
    inBounds ⟨hours, minutes, .finite seconds⟩ = true ↔
      hours < 24 ∧ minutes < 60 ∧ seconds < 60 := by
  simp only [inBounds, Double.lt, Bool.and_eq_true, decide_eq_true_eq]
  norm_cast
  exact ⟨fun h => ⟨h.2, h.1.2, h.1.1⟩, fun h => ⟨⟨h.2.2, h.2.1⟩, h.1⟩⟩

theorem toSeconds_eq (hhours : hours < 24) (hminutes : minutes < 60) (hseconds : seconds < 60) :
    toSeconds ⟨hours, minutes, .finite seconds⟩ =
      .ok (.finite (3600 * hours + 60 * minutes + seconds : Nat)) := by
  have hwhole : doubleOfInt (hours * 3600 + minutes * 60) =
      .ok (.finite ((hours * 3600 + minutes * 60 : Nat) : ℚ)) := by
    rw [← doubleOfInt_natCast (by omega)]
    push_cast
    rfl
  have hsum : ((hours * 3600 + minutes * 60 : Nat) : ℚ) + (seconds : ℚ) =
      ((3600 * hours + 60 * minutes + seconds : Nat) : ℚ) := by
    push_cast
    ring
  rw [toSeconds, hwhole]
  show Except.ok (Double.ofRat _) = _
  rw [hsum, Double.ofRat_natCast (by omega)]

end ClockTime

/-! ## Times of scripts -/

variable {t : String}

/-- A time is within a day. -/
theorem IsTime.lt_day {n : Nat} (h : IsTime t n) : n < 86400 := by
  obtain ⟨hours, minutes, seconds, -, hhours, hminutes, hseconds, rfl⟩ := h
  omega

/-- **A valid time without a fraction** is one of the language. -/
theorem exists_isTime (hline : '\n' ∉ t.toList) (hpoint : '.' ∉ t.toList)
    (h : isValidTime t = .ok true) : ∃ n, IsTime t n := by
  rcases hread : ClockTime.read? t with f | _ | time
  · rw [isValidTime, hread] at h
    cases h
  · rw [isValidTime, hread] at h
    cases h
  · have hform : ClockTime.hasForm t = true := by
      by_contra hno
      rw [ClockTime.read?, if_neg hno] at hread
      cases hread
    obtain ⟨hours, minutes, seconds, hparts⟩ := ClockTime.exists_hasParts hline hpoint hform
    obtain rfl := Option.some.inj (ClockTime.eq_of_read?_hasParts hline hparts hread)
    rw [isValidTime, hread] at h
    obtain ⟨hhours, hminutes, hseconds⟩ := ClockTime.inBounds_iff.1 (Except.ok.inj h)
    exact ⟨_, hours, minutes, seconds, hparts, hhours, hminutes, hseconds, rfl⟩

/-- **A time of the language is valid,** and read as its seconds, unless its hours have too many
digits. -/
theorem IsTime.read {n : Nat} (h : IsTime t n) (hline : '\n' ∉ t.toList)
    (hshort : ∀ k, ¬ LongTime t k) : isValidTime t = .ok true ∧ secondsOf t = .ok (.finite n) := by
  obtain ⟨hours, minutes, seconds, hparts, hhours, hminutes, hseconds, rfl⟩ := h
  obtain ⟨time, hread⟩ := (ClockTime.read?_failsFor hline).1.ok_of_not hshort
  obtain rfl := ClockTime.eq_of_read?_hasParts hline hparts hread
  refine ⟨?_, ?_⟩
  · rw [isValidTime, hread]
    exact congrArg Except.ok (ClockTime.inBounds_iff.2 ⟨hhours, hminutes, hseconds⟩)
  · rw [secondsOf, hread]
    exact ClockTime.toSeconds_eq hhours hminutes hseconds

/-- A time of the language that is valid has been read, so its hours have not too many digits. -/
theorem IsTime.secondsOf_eq {n : Nat} (h : IsTime t n) (hline : '\n' ∉ t.toList)
    (hvalid : isValidTime t = .ok true) : secondsOf t = .ok (.finite n) :=
  (h.read hline ((isValidTime_failsFor hline).not_of_ok hvalid)).2

end ClipScript
