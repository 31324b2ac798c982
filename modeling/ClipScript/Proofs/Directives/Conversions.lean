/-
# Numbers in directives

The conditions and constructors of the patterns read numbers out of parameters. A
parameter has the shape of its slot, and each shape that is read as a number is a
plain numeral with something around it: `px`, `s`, an `x` between two of them, or the
colons of a time. So reading succeeds, and the one way in which a directive can fail
with a fault is a numeral of more than `digitLimit` digits.

`FailsFor` says of a computation for which numbers of digits it fails. It passes
through binds, so the patterns are gone through one condition after another.
-/
import ClipScript.Proofs.Directives.Slots
import ClipScript.Proofs.Number.Numerals
import ClipScript.Proofs.Number.Whole

set_option autoImplicit false

namespace ClipScript

open Number Text

/-! ## Computations that fail for numerals -/

/-- **A computation that fails for numerals that are too long,** and for nothing else: for the
ones with `n` digits, where `P n`. -/
def FailsFor {α : Type} (x : Except Fault α) (P : Nat → Prop) : Prop :=
  ∀ f, x = .error f ↔ ∃ n, P n ∧ f = .tooManyDigits n

namespace FailsFor

variable {α β : Type} {x : Except Fault α} {P Q : Nat → Prop}

theorem never (h : ∃ a, x = .ok a) (hP : ∀ n, ¬ P n) : FailsFor x P := by
  obtain ⟨a, rfl⟩ := h
  intro f
  constructor
  · rintro ⟨⟩
  · rintro ⟨n, hn, -⟩
    exact absurd hn (hP n)

theorem congr (h : FailsFor x P) (hPQ : ∀ n, P n ↔ Q n) : FailsFor x Q := by
  intro f
  simp only [h f, hPQ]

theorem not_of_ok (h : FailsFor x P) {a : α} (ha : x = .ok a) (n : Nat) : ¬ P n := by
  intro hn
  have herror := (h (.tooManyDigits n)).2 ⟨n, hn, rfl⟩
  rw [ha] at herror
  cases herror

theorem error (h : FailsFor x P) {n : Nat} (hn : P n) : x = .error (.tooManyDigits n) :=
  (h _).2 ⟨n, hn, rfl⟩

theorem ok_of_not (h : FailsFor x P) (hP : ∀ n, ¬ P n) : ∃ a, x = .ok a := by
  rcases x with f | a
  · obtain ⟨n, hn, -⟩ := (h f).1 rfl
    exact absurd hn (hP n)
  · exact ⟨a, rfl⟩

theorem ok_bind {a : α} {k : α → Except Fault β} (h : FailsFor (k a) P) :
    FailsFor (.ok a >>= k) P :=
  h

theorem bind_ok {k : α → Except Fault β} (h : FailsFor x P)
    (hk : ∀ a, x = .ok a → ∃ b, k a = .ok b) : FailsFor (x >>= k) P := by
  intro f
  rw [← h f]
  rcases x with g | a
  · exact ⟨fun hf => congrArg _ (Except.error.inj hf), fun hf => congrArg _ (Except.error.inj hf)⟩
  · -- the first computation gave something, and the second one has no fault
    obtain ⟨b, hb⟩ := hk a rfl
    show k a = .error f ↔ _
    rw [hb]
    exact ⟨by rintro ⟨⟩, by rintro ⟨⟩⟩

/-- **Going on** with what can fail too: it only does so if the first computation did not. -/
theorem bind {k : α → Except Fault β} {R : α → Nat → Prop} (h : FailsFor x P)
    (hk : ∀ a, x = .ok a → FailsFor (k a) (R a)) :
    FailsFor (x >>= k) fun n => P n ∨ ∃ a, x = .ok a ∧ R a n := by
  intro f
  rcases x with g | a
  · -- the first computation failed, so the whole fails in the same way
    have hg := h f
    constructor
    · intro hf
      obtain ⟨n, hn, rfl⟩ := hg.1 (congrArg _ (Except.error.inj hf))
      exact ⟨n, .inl hn, rfl⟩
    · rintro ⟨n, hn | ⟨a, ha, -⟩, rfl⟩
      · exact congrArg _ (Except.error.inj (h.error hn))
      · cases ha
  · -- the first computation did not fail, so its numerals are not too long
    show k a = .error f ↔ _
    rw [hk a rfl f]
    constructor
    · rintro ⟨n, hn, rfl⟩
      exact ⟨n, .inr ⟨a, rfl, hn⟩, rfl⟩
    · rintro ⟨n, hn | ⟨_, ⟨⟩, hn⟩, rfl⟩
      · exact absurd hn (h.not_of_ok rfl n)
      · exact ⟨n, hn, rfl⟩

end FailsFor

/-- **A numeral of `n` digits,** which is too many. -/
structure TooLong (cs : List Char) (n : Nat) : Prop where
  digits : isDigits cs = true
  length : cs.length = n
  long : digitLimit < n

/-- Digits are read unless there are too many. -/
theorem readInt_failsFor {cs : List Char} (h : isDigits cs = true) :
    FailsFor (readInt (String.ofList cs)) (TooLong cs) := by
  intro f
  rw [readInt_of_isDigits h]
  by_cases hlong : cs.length > digitLimit
  · rw [if_pos hlong, Except.error.injEq]
    constructor
    · rintro rfl
      exact ⟨cs.length, ⟨h, rfl, hlong⟩, rfl⟩
    · rintro ⟨n, hn, rfl⟩
      rw [hn.length]
  · rw [if_neg hlong]
    constructor
    · rintro ⟨⟩
    · rintro ⟨n, hn, -⟩
      exact absurd hn.long (by rwa [← hn.length])

/-! ## Shapes of numerals -/

theorem withoutEnd_append {ending s : String} {cs : List Char}
    (h : s.toList = cs ++ ending.toList) : withoutEnd ending s = String.ofList cs := by
  have hsuffix : ending.toList.isSuffixOf (cs ++ ending.toList) = true :=
    List.isSuffixOf_iff_suffix.2 ⟨cs, rfl⟩
  have hlen : (cs ++ ending.toList).length - ending.length = cs.length := by
    rw [List.length_append, String.length_toList, Nat.add_sub_cancel]
  simp only [withoutEnd, h, hsuffix, if_true, hlen, List.take_left]

namespace Shape

variable {s : String}

theorem isDigitsThen_eq {rest cs : List Char} (h : isDigitsThen rest cs = true) :
    ∃ ds, isDigits ds = true ∧ cs = ds ++ rest := by
  obtain ⟨hds, hrest⟩ := Bool.and_eq_true_iff.1 h
  refine ⟨_, hds, ?_⟩
  rw [← eq_of_beq hrest, List.takeWhile_append_dropWhile]

theorem accepts_pixels (h : pixels.accepts s = true) :
    ∃ ds, isDigits ds = true ∧ s.toList = ds ++ ['p', 'x'] :=
  isDigitsThen_eq h

theorem accepts_dimensions (h : dimensions.accepts s = true) :
    ∃ w d, isDigits w = true ∧ isDigits d = true ∧ s.toList = w ++ 'x' :: d := by
  obtain ⟨hw, hrest⟩ := Bool.and_eq_true_iff.1 h
  have hsplit := List.takeWhile_append_dropWhile (p := isDigit) (l := s.toList)
  split at hrest
  · next d hd =>
    rw [hd] at hsplit
    exact ⟨_, d, hw, hrest, hsplit.symm⟩
  · cases hrest

theorem accepts_seconds (h : seconds.accepts s = true) :
    ∃ ds, isPlainDecimal ds = true ∧ s.toList = ds ++ ['s'] := by
  obtain ⟨hw, hrest⟩ := Bool.and_eq_true_iff.1 h
  have hsplit := List.takeWhile_append_dropWhile (p := isDigit) (l := s.toList)
  have hwhole := (isDigits_iff.1 hw).2
  split at hrest
  -- digits, a point and more digits
  · next rest hd =>
    obtain ⟨fraction, hfraction, rfl⟩ := isDigitsThen_eq hrest
    have hpoint : ¬ isDigit '.' = true := by decide
    refine ⟨s.toList.takeWhile isDigit ++ '.' :: fraction, ?_, ?_⟩
    · rw [isPlainDecimal, List.takeWhile_append_of_pos hwhole, List.dropWhile_append_of_pos hwhole,
        List.takeWhile_cons_of_neg hpoint, List.dropWhile_cons_of_neg hpoint, List.append_nil, hw]
      exact hfraction
    · rw [List.append_assoc, List.cons_append, ← hd, hsplit]
  · -- or digits without a point
    refine ⟨s.toList.takeWhile isDigit, ?_, ?_⟩
    · rw [isPlainDecimal, List.takeWhile_eq_self_iff.2 hwhole, List.dropWhile_eq_nil_iff.2 hwhole,
        hw]
      rfl
    · rw [← eq_of_beq hrest, hsplit]

/-- A run of digits is a number of seconds. -/
theorem accepts_seconds_of_isDigits {ds : List Char} (h : isDigits ds = true) :
    seconds.accepts (String.ofList (ds ++ ['s'])) = true := by
  have hdigits := (isDigits_iff.1 h).2
  have hend : ¬ isDigit 's' = true := by decide
  dsimp only [seconds]
  rw [String.toList_ofList, List.takeWhile_append_of_pos hdigits,
    List.dropWhile_append_of_pos hdigits, List.takeWhile_cons_of_neg hend,
    List.dropWhile_cons_of_neg hend, List.append_nil, h]
  rfl

theorem accepts_line : line.accepts s = true ↔ s.toList ≠ [] ∧ '\n' ∉ s.toList := by
  simp [line]

end Shape

/-! ## Reading parameters -/

variable {t : String}

/-- **Pixels with too many digits.** -/
def LongPixels (t : String) (n : Nat) : Prop := ∃ ds, t.toList = ds ++ ['p', 'x'] ∧ TooLong ds n

/-- **A size with too many digits** in its width, or else in its height. -/
def LongSize (t : String) (n : Nat) : Prop :=
  ∃ w d, t.toList = w ++ 'x' :: d ∧ isDigits w = true ∧ isDigits d = true ∧
    (TooLong w n ∨ w.length ≤ digitLimit ∧ TooLong d n)

/-- **A time with too many digits** in its hours. -/
def LongTime (t : String) (n : Nat) : Prop :=
  ∃ hour min sec, t.toList = hour ++ ':' :: (min ++ ':' :: sec) ∧ TooLong hour n ∧
    ClockTime.isShort min = true ∧ ClockTime.isSeconds sec = true

/-- **Short numerals:** no digits in a row are too many to be read. -/
def ShortNumerals (cs : List Char) : Prop :=
  ∀ ds, isDigits ds = true → ds <:+: cs → ds.length ≤ digitLimit

theorem ShortNumerals.mono {cs ds : List Char} (h : ShortNumerals cs) (hin : ds <:+: cs) :
    ShortNumerals ds :=
  fun es hes hinner => h es hes (hinner.trans hin)

theorem TooLong.not_short {cs ds : List Char} {n : Nat} (h : TooLong ds n) (hin : ds <:+: cs) :
    ¬ ShortNumerals cs := by
  intro hshort
  have hle := hshort ds h.digits hin
  rw [h.length] at hle
  exact absurd h.long (Nat.not_lt.2 hle)

theorem LongPixels.not_short {n : Nat} (h : LongPixels t n) : ¬ ShortNumerals t.toList := by
  obtain ⟨ds, heq, hlong⟩ := h
  apply hlong.not_short
  rw [heq]
  exact (List.prefix_append _ _).isInfix

theorem LongSize.not_short {n : Nat} (h : LongSize t n) : ¬ ShortNumerals t.toList := by
  obtain ⟨w, d, heq, -, -, hlong⟩ := h
  rw [heq]
  -- the width stands in front of the size, and the height at its end
  rcases hlong with hwidth | ⟨-, hheight⟩
  · exact hwidth.not_short (List.prefix_append _ _).isInfix
  · exact hheight.not_short ((List.suffix_cons _ _).trans (List.suffix_append _ _)).isInfix

theorem LongTime.not_short {n : Nat} (h : LongTime t n) : ¬ ShortNumerals t.toList := by
  obtain ⟨hour, min, sec, heq, hlong, -, -⟩ := h
  apply hlong.not_short
  rw [heq]
  exact (List.prefix_append _ _).isInfix

/-- The pixels of a parameter. -/
theorem readPixels_failsFor (h : Shape.pixels.accepts t = true) :
    FailsFor (readPixels t) (LongPixels t) := by
  obtain ⟨ds, hds, heq⟩ := Shape.accepts_pixels h
  rw [readPixels, @withoutEnd_append "px" t ds heq]
  refine (readInt_failsFor hds).congr fun n => ⟨fun hn => ⟨ds, heq, hn⟩, ?_⟩
  -- what stands before the ending is the same however the text is taken apart
  rintro ⟨ds', heq', hn⟩
  rwa [List.append_cancel_right (heq.symm.trans heq')]

theorem splitOn_size {w d : List Char} (heq : t.toList = w ++ 'x' :: d) (hw : isDigits w = true)
    (hd : isDigits d = true) : t.toList.splitOn 'x' = [w, d] := by
  have hx : ∀ cs : List Char, isDigits cs = true → 'x' ∉ cs := fun cs hcs hmem =>
    ne_of_isDigit ((isDigits_iff.1 hcs).2 'x' hmem) (by decide) rfl
  rw [heq, List.splitOn_append_cons_self_of_not_mem (hx w hw), List.splitOn_eq_singleton (hx d hd)]

/-- The size in a parameter. -/
theorem readSize_failsFor (h : Shape.dimensions.accepts t = true) :
    FailsFor (readSize t) (LongSize t) := by
  obtain ⟨w, d, hw, hd, heq⟩ := Shape.accepts_dimensions h
  have hsplit := splitOn_size heq hw hd
  have hread : FailsFor (readSize t) fun n =>
      TooLong w n ∨ ∃ a, readInt (String.ofList w) = .ok a ∧ TooLong d n := by
    rw [readSize, hsplit]
    exact (readInt_failsFor hw).bind fun _ _ =>
      (readInt_failsFor hd).bind_ok fun _ _ => ⟨_, rfl⟩
  -- the height is only read when the width was
  have hwidth : (∃ a, readInt (String.ofList w) = .ok a) ↔ w.length ≤ digitLimit := by
    rw [readInt_of_isDigits hw]
    constructor
    · rintro ⟨a, ha⟩
      by_contra hlong
      rw [if_pos (by omega)] at ha
      cases ha
    · intro hle
      exact ⟨_, if_neg (by omega)⟩
  refine hread.congr fun n => ?_
  rw [exists_and_right, hwidth]
  constructor
  · intro hn
    exact ⟨w, d, heq, hw, hd, hn⟩
  · rintro ⟨w', d', heq', hw', hd', hn⟩
    have hsame := hsplit.symm.trans (splitOn_size heq' hw' hd')
    simp only [List.cons.injEq, and_true] at hsame
    obtain ⟨rfl, rfl⟩ := hsame
    exact hn

/-- The duration in a parameter is always read, though it may be infinite. -/
theorem readDecimal_seconds (h : Shape.seconds.accepts t = true) :
    ∃ x, readDecimal (withoutEnd "s" t) = .ok x ∧ (x.isLength = true ∨ x = .infinity false) := by
  obtain ⟨ds, hds, heq⟩ := Shape.accepts_seconds h
  rw [@withoutEnd_append "s" t ds heq]
  exact readDecimal_cases hds

/-! ## Times -/

namespace ClockTime

/-- Short numerals are always read. -/
theorem readInt_isShort {cs : List Char} (h : isShort cs = true) :
    readInt (String.ofList cs) = .ok (digitsValue cs : Int) := by
  obtain ⟨hds, hlen⟩ := Bool.and_eq_true_iff.1 h
  rw [readInt_of_isDigits hds, if_neg]
  have := of_decide_eq_true hlen
  rw [digitLimit]
  omega

/-- Seconds are plain decimal numerals. -/
theorem isPlainDecimal_of_isSeconds {cs : List Char} (h : isSeconds cs = true) :
    isPlainDecimal cs = true := by
  unfold isSeconds at h
  unfold isPlainDecimal
  generalize cs.dropWhile isDigit = rest at h ⊢
  split at h
  · rw [(Bool.and_eq_true_iff.1 h).1]
    rfl
  · obtain ⟨hwhole, hfraction⟩ := Bool.and_eq_true_iff.1 h
    rw [(Bool.and_eq_true_iff.1 hwhole).1]
    exact hfraction
  · cases h

theorem colon_not_mem {cs : List Char} (h : isPlainDecimal cs = true) : ':' ∉ cs := by
  intro hmem
  rcases (isPlainDecimal_chars h).2 _ hmem with hdigit | heq
  · exact absurd hdigit (by decide)
  · exact absurd heq (by decide)

theorem colon_not_mem_of_isDigits {cs : List Char} (h : isDigits cs = true) : ':' ∉ cs :=
  fun hmem => absurd ((isDigits_iff.1 h).2 _ hmem) (by decide)

/-- A time with hours is split at its colons. -/
theorem splitOn_time {hour min sec : List Char}
    (heq : t.toList = hour ++ ':' :: (min ++ ':' :: sec)) (hhour : isDigits hour = true)
    (hmin : isShort min = true) (hsec : isSeconds sec = true) :
    t.toList.splitOn ':' = [hour, min, sec] := by
  have hmincolon := colon_not_mem_of_isDigits (Bool.and_eq_true_iff.1 hmin).1
  have hseccolon := colon_not_mem (isPlainDecimal_of_isSeconds hsec)
  rw [heq, List.splitOn_append_cons_self_of_not_mem (colon_not_mem_of_isDigits hhour),
    List.splitOn_append_cons_self_of_not_mem hmincolon, List.splitOn_eq_singleton hseccolon]

theorem dropLineFeed_eq_self {cs : List Char} (h : '\n' ∉ cs) : dropLineFeed cs = cs := by
  rw [dropLineFeed, if_neg]
  intro hlast
  exact h (List.mem_of_getLast? hlast)

/-- A time that is too long has the form of one, with three parts. -/
theorem splitOn_of_longTime (hline : '\n' ∉ t.toList) {n : Nat} (h : LongTime t n) :
    hasForm t = true ∧ ∃ hour min sec, t.toList.splitOn ':' = [hour, min, sec] ∧
      TooLong hour n := by
  obtain ⟨hour, min, sec, heq, hlong, hmin, hsec⟩ := h
  have hsplit := splitOn_time heq hlong.digits hmin hsec
  refine ⟨?_, hour, min, sec, hsplit, hlong⟩
  rw [hasForm, dropLineFeed_eq_self hline, hsplit]
  simp only [hlong.digits, hmin, hsec, Bool.and_self]

/-- A time without hours is not too long. -/
theorem not_longTime (hline : '\n' ∉ t.toList) (h : (t.toList.splitOn ':').length ≠ 3) (n : Nat) :
    ¬ LongTime t n := by
  intro hlong
  obtain ⟨-, _, _, _, hsplit, -⟩ := splitOn_of_longTime hline hlong
  rw [hsplit] at h
  exact h rfl

/-- **Reading a time** of one line: it fails for hours that are too long; and what is read
otherwise are hours, minutes and seconds that are not negative. -/
theorem read?_failsFor (hline : '\n' ∉ t.toList) :
    FailsFor (read? t) (LongTime t) ∧
      ∀ time, read? t = .ok (some time) → ∃ (hours minutes : Nat) (seconds : Double),
        time = ⟨hours, minutes, seconds⟩ ∧
          (seconds.isLength = true ∨ seconds = .infinity false) := by
  -- the form says how many parts there are, and that all but the hours are short
  by_cases hform : hasForm t = true
  · have hform' := hform
    rw [hasForm, dropLineFeed_eq_self hline] at hform'
    split at hform'
    -- seconds alone
    · next sec hsplit =>
      obtain ⟨x, hx, hlength⟩ := readDecimal_cases (isPlainDecimal_of_isSeconds hform')
      have hread : read? t = .ok (some ⟨0, 0, x⟩) := by
        rw [read?, if_pos hform]
        simp only [hsplit, List.map_cons, List.map_nil, hx]
        rfl
      refine ⟨.never ⟨_, hread⟩ (not_longTime hline (by simp [hsplit])), ?_⟩
      intro time htime
      rw [hread] at htime
      exact ⟨0, 0, x, (Option.some.inj (Except.ok.inj htime)).symm, hlength⟩
    -- minutes and seconds
    · next min sec hsplit =>
      obtain ⟨hmin, hsec⟩ := Bool.and_eq_true_iff.1 hform'
      obtain ⟨x, hx, hlength⟩ := readDecimal_cases (isPlainDecimal_of_isSeconds hsec)
      have hread : read? t = .ok (some ⟨0, digitsValue min, x⟩) := by
        rw [read?, if_pos hform]
        simp only [hsplit, List.map_cons, List.map_nil, hx, readInt_isShort hmin]
        rfl
      refine ⟨.never ⟨_, hread⟩ (not_longTime hline (by simp [hsplit])), ?_⟩
      intro time htime
      rw [hread] at htime
      exact ⟨0, digitsValue min, x, (Option.some.inj (Except.ok.inj htime)).symm, hlength⟩
    -- hours as well, the only part that can be too long
    · next hour min sec hsplit =>
      obtain ⟨hhourmin, hsec⟩ := Bool.and_eq_true_iff.1 hform'
      obtain ⟨hhour, hmin⟩ := Bool.and_eq_true_iff.1 hhourmin
      obtain ⟨x, hx, hlength⟩ := readDecimal_cases (isPlainDecimal_of_isSeconds hsec)
      have hread : read? t = readInt (String.ofList hour) >>= fun h =>
          .ok (some ⟨h, digitsValue min, x⟩) := by
        rw [read?, if_pos hform]
        simp only [hsplit, List.map_cons, List.map_nil, hx, readInt_isShort hmin]
        rfl
      refine ⟨?_, fun time htime => ?_⟩
      · rw [hread]
        refine ((readInt_failsFor hhour).bind_ok fun h _ => ⟨_, rfl⟩).congr fun n => ⟨?_, ?_⟩
        · intro hn
          refine ⟨hour, min, sec, ?_, hn, hmin, hsec⟩
          -- the parts put together again are the text, which has the form of a long time
          have hjoin : [':'].intercalate (t.toList.splitOn ':') = t.toList :=
            List.intercalate_splitOn ':'
          rw [← hjoin, hsplit]
          simp
        · intro hn
          obtain ⟨-, _, _, _, hsplit', hlong⟩ := splitOn_of_longTime hline hn
          rw [hsplit] at hsplit'
          cases hsplit'
          exact hlong
      · rw [hread, readInt_of_isDigits hhour] at htime
        split at htime
        · cases htime
        · exact ⟨digitsValue hour, digitsValue min, x,
            (Option.some.inj (Except.ok.inj htime)).symm, hlength⟩
    · cases hform'
  · have hread : read? t = .ok none := by rw [read?, if_neg hform]
    refine ⟨.never ⟨_, hread⟩ fun n hn => hform (splitOn_of_longTime hline hn).1, ?_⟩
    intro time htime
    rw [hread] at htime
    cases htime

end ClockTime

/-- Whether a text is a valid time is known, unless its hours are too long. -/
theorem isValidTime_failsFor (hline : '\n' ∉ t.toList) : FailsFor (isValidTime t) (LongTime t) := by
  rw [isValidTime]
  refine (ClockTime.read?_failsFor hline).1.bind_ok fun time _ => ?_
  rcases time with _ | time
  · exact ⟨_, rfl⟩
  · exact ⟨_, rfl⟩

/-- **A valid time has a length.** -/
theorem secondsOf_of_isValidTime (hline : '\n' ∉ t.toList) (h : isValidTime t = .ok true) :
    ∃ x, secondsOf t = .ok x ∧ x.isLength = true := by
  rcases hread : ClockTime.read? t with f | _ | time
  · rw [isValidTime, hread] at h
    cases h
  · rw [isValidTime, hread] at h
    cases h
  · obtain ⟨hours, minutes, seconds, rfl, hseconds⟩ :=
      (ClockTime.read?_failsFor hline).2 time hread
    rw [isValidTime, hread] at h
    -- what is in bounds is far below the numbers that doubles cannot hold
    have hbounds : ClockTime.inBounds ⟨hours, minutes, seconds⟩ = true := Except.ok.inj h
    simp only [ClockTime.inBounds, Bool.and_eq_true, decide_eq_true_eq] at hbounds
    obtain ⟨⟨hlt, hminutes⟩, hhours⟩ := hbounds
    have hsmall : hours * 3600 + minutes * 60 < 2 ^ 53 := by omega
    have hdouble := doubleOfInt_natCast hsmall
    push_cast at hdouble
    refine ⟨.add (.finite (hours * 3600 + minutes * 60)) seconds, ?_, ?_⟩
    · rw [secondsOf, hread]
      simp only [bind, Except.bind, ClockTime.toSeconds, hdouble]
      rfl
    · rcases hseconds with hseconds | rfl
      · have hday : hours * 3600 + minutes * 60 + 60 ≤ 2 ^ 53 := by omega
        have hle := Double.natCast_le_largest hday
        push_cast at hle
        have hnonneg : (0 : ℚ) ≤ hours * 3600 + minutes * 60 := by
          exact_mod_cast Nat.zero_le (hours * 3600 + minutes * 60)
        exact Double.isLength_add hnonneg hseconds hlt hle
      · cases hlt

end ClipScript
