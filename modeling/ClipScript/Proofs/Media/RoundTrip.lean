/-
# Media facts, written and read again

Media facts that are written as JSON have their frame twice: as a resolution, and as width and
height. When they are read again only the resolution counts, and that has rules of its own. Both
of its numbers have to be positive, and no longer than a numeral may be (`Spelled`). Width and
height may be anything, so a frame that was given by them may be refused (`FrameRefused`), and
that is the only way to lose media facts by writing them (`ofJson_toJson_iff`): names and codecs
are passed on as they are, and so are length and frame rate, which are read once only.
-/
import ClipScript.Descriptor
import ClipScript.Proofs.Directives.Conversions
import ClipScript.Proofs.Failing
import Mathlib.Data.List.Induction

set_option autoImplicit false

namespace ClipScript

/-! ## Digits -/

namespace Number

open Text

theorem isDigit_of_ascii {c : Char} (h : c.isDigit = true) : isDigit c = true := by
  have hrange : '0' ≤ c ∧ c ≤ '9' := by
    simpa [Char.isDigit, Char.le_def] using h
  rw [isDigit, digitValue?_of_ascii hrange, Option.isSome_some]

/-- What is written in digits is a run of digits. -/
theorem isDigits_toDigits (n : Nat) : isDigits (Nat.toDigits 10 n) = true :=
  isDigits_iff.2 ⟨Nat.toDigits_ne_nil, fun _ hc =>
    isDigit_of_ascii (Nat.isDigit_of_mem_toDigits (by decide) (by decide) hc)⟩

/-- **Digits stand for the number** that they were written for. -/
theorem digitsValue_toDigits (n : Nat) : digitsValue (Nat.toDigits 10 n) = n := by
  have hstep : ∀ k : Nat, ∀ c ∈ Nat.toDigits 10 n,
      10 * k + (digitValue? c).getD 0 = 10 * k + (c.toNat - '0'.toNat) := by
    intro k c hc
    have hrange : '0' ≤ c ∧ c ≤ '9' := by
      simpa [Char.isDigit, Char.le_def] using
        Nat.isDigit_of_mem_toDigits (by decide) (by decide) hc
    rw [digitValue?_of_ascii hrange]
    rfl
  rw [digitsValue, List.foldl_ext _ _ 0 hstep]
  exact Nat.ofDigitChars_toDigits (by decide) (by decide)

/-- A run of digits stands for a number that has no more. -/
theorem digitsValue_lt (cs : List Char) : digitsValue cs < 10 ^ cs.length := by
  induction cs using List.reverseRecOn with
  | nil => decide
  | append_singleton cs c ih =>
    have hdigit : (digitValue? c).getD 0 ≤ 9 := by
      rcases hvalue : digitValue? c with _ | d
      · exact Nat.zero_le _
      · exact digitValue?_le_nine hvalue
    have hsplit : digitsValue (cs ++ [c]) = 10 * digitsValue cs + (digitValue? c).getD 0 := by
      rw [digitsValue, List.foldl_append]
      rfl
    rw [hsplit, List.length_append, List.length_singleton, pow_succ]
    omega

/-- **What is read** has no more digits than a numeral may have. -/
theorem natAbs_lt_of_readInt {s : String} {n : Int} (h : readInt s = .ok n) :
    n.natAbs < 10 ^ digitLimit := by
  rw [readInt] at h
  dsimp only at h
  split at h
  · cases h
  · split at h
    · cases h
    · next hshort =>
      split at h
      · cases h
      · obtain rfl := Except.ok.inj h
        have hlt := digitsValue_lt (((splitSign (strip isNumberBlank s.toList)).2.takeWhile
          fun c => isDigit c || c == '_').filter isDigit)
        have hle := Nat.pow_le_pow_right (n := 10) (by decide) (Nat.le_of_not_gt hshort)
        split
        · rw [Int.natAbs_neg, Int.natAbs_natCast]
          exact hlt.trans_le hle
        · rw [Int.natAbs_natCast]
          exact hlt.trans_le hle

/-- **Reading a run of digits behind a minus sign** fails only when there are too many of them. -/
theorem readInt_minus {cs : List Char} (h : isDigits cs = true) :
    readInt (String.ofList ('-' :: cs)) =
      if cs.length > digitLimit then .error (.tooManyDigits cs.length)
      else .ok (-(digitsValue cs : Int)) := by
  refine @readInt_of_splitSign _ _ true (fun d hd => ?_) rfl h
  rcases List.mem_cons.1 hd with rfl | hd
  · decide
  · exact isNumberBlank_of_isDigit ((isDigits_iff.1 h).2 d hd)

/-- The characters of a whole number. -/
theorem toList_toString (n : Int) :
    (toString n).toList = (if n < 0 then ['-'] else []) ++ Nat.toDigits 10 n.natAbs := by
  cases n with
  | ofNat k => exact Nat.toList_repr
  | negSucc k =>
    show ("-" ++ Nat.repr (k + 1)).toList = _
    rw [String.toList_append, Nat.toList_repr, if_pos (Int.negSucc_lt_zero k)]
    rfl

/-- **Reading what was written:** the same number, unless it is too long. -/
theorem readInt_toString (n : Int) :
    readInt (toString n) =
      if 10 ^ digitLimit ≤ n.natAbs then .error (.tooManyDigits (Nat.toDigits 10 n.natAbs).length)
      else .ok n := by
  have hlong : (Nat.toDigits 10 n.natAbs).length > digitLimit ↔ 10 ^ digitLimit ≤ n.natAbs := by
    rw [gt_iff_lt, ← Nat.not_le, Nat.length_toDigits_le_iff (by decide) (by decide), Nat.not_lt]
  have hdigits := isDigits_toDigits n.natAbs
  rw [← String.ofList_toList (s := toString n), toList_toString]
  by_cases hneg : n < 0
  · rw [if_pos hneg, List.singleton_append, readInt_minus hdigits, digitsValue_toDigits]
    simp only [hlong]
    rw [show -(n.natAbs : Int) = n by omega]
  · rw [if_neg hneg, List.nil_append, readInt_of_isDigits hdigits, digitsValue_toDigits]
    simp only [hlong]
    rw [show (n.natAbs : Int) = n by omega]

end Number

/-! ## Resolutions -/

namespace Descriptor

open Number

variable {d : Descriptor} {s : String}

/-- **A number that a resolution can give:** positive, and no longer than a numeral may be. -/
def Spelled (n : Int) : Prop := 0 < n ∧ n.natAbs < 10 ^ digitLimit

/-- **A resolution gives a frame,** or is refused. -/
theorem withResolution_cases (s : String) (d : Descriptor) :
    (∃ w h, Spelled w ∧ Spelled h ∧
      d.withResolution s = .ok { d with width := some w, height := some h }) ∨
    d.withResolution s = .error (.badResolution s) ∨
    d.withResolution s = .error (.emptyResolution s) := by
  rw [withResolution, splitResolution]
  split
  · next w h hparts =>
    split
    · next width height hw hh =>
      by_cases hempty : width ≤ 0 ∨ height ≤ 0
      · refine .inr (.inr ?_)
        simp only [bind, Except.bind, if_pos hempty]
      · refine .inl ⟨width, height, ⟨by omega, natAbs_lt_of_readInt hw⟩,
          ⟨by omega, natAbs_lt_of_readInt hh⟩, ?_⟩
        simp only [bind, Except.bind, if_neg hempty]
        rfl
    · exact .inr (.inl rfl)
  · exact .inr (.inl rfl)

/-- No number has an `x` of either case. -/
theorem not_mem_toString {c : Char} (hdigit : Text.isDigit c = false) (hminus : c ≠ '-') (n : Int) :
    c ∉ (toString n).toList := by
  rw [toList_toString, List.mem_append, not_or]
  refine ⟨?_, fun hmem => ?_⟩
  · split
    · simpa using hminus
    · simp
  · exact ne_of_isDigit ((isDigits_iff.1 (isDigits_toDigits n.natAbs)).2 c hmem) hdigit rfl

/-- **A frame** is read as it was written, if its numbers are neither too long nor empty. -/
theorem withResolution_size (w h : Int) (d : Descriptor) :
    d.withResolution (toString w ++ "x" ++ toString h) =
      if 10 ^ digitLimit ≤ w.natAbs ∨ 10 ^ digitLimit ≤ h.natAbs then
        .error (.badResolution (toString w ++ "x" ++ toString h))
      else if w ≤ 0 ∨ h ≤ 0 then .error (.emptyResolution (toString w ++ "x" ++ toString h))
      else .ok { d with width := some w, height := some h } := by
  have hlist : (toString w ++ "x" ++ toString h).toList =
      (toString w).toList ++ 'x' :: (toString h).toList := by
    simp only [String.toList_append, List.append_assoc]
    rfl
  -- there is no capital letter to be made small
  have hcapital : 'X' ∉ (toString w ++ "x" ++ toString h).toList := by
    rw [hlist, List.mem_append, List.mem_cons, not_or, not_or]
    exact ⟨not_mem_toString (by decide) (by decide) w, by decide,
      not_mem_toString (by decide) (by decide) h⟩
  have hcase : (toString w ++ "x" ++ toString h).toList.map
      (fun c => if c = 'X' then 'x' else c) = (toString w ++ "x" ++ toString h).toList :=
    (List.map_congr_left fun c hc => if_neg fun (hX : c = 'X') => hcapital (hX ▸ hc)).trans
      (List.map_id _)
  have hsplit : (toString w ++ "x" ++ toString h).toList.splitOn 'x' =
      [(toString w).toList, (toString h).toList] := by
    rw [hlist, List.splitOn_append_cons_self_of_not_mem
      (not_mem_toString (by decide) (by decide) w),
      List.splitOn_eq_singleton (not_mem_toString (by decide) (by decide) h)]
  rw [withResolution, splitResolution, hcase, hsplit]
  simp only [String.ofList_toList, readInt_toString]
  by_cases hw : 10 ^ digitLimit ≤ w.natAbs
  · simp only [hw, true_or, if_true]
    rfl
  · by_cases hh : 10 ^ digitLimit ≤ h.natAbs
    · simp only [if_neg hw, hh, or_true, if_true]
      rfl
    · simp only [hw, hh, or_self, if_false, bind, Except.bind]
      rfl

/-! ## Media facts -/

/-- **A frame that is refused** when it is read again: one of its numbers cannot be spelled. -/
def FrameRefused (d : Descriptor) : Prop :=
  ∃ w h, d.frame? = some (w, h) ∧ ¬ (Spelled w ∧ Spelled h)

theorem frame?_eq_some {w h : Int} (hframe : d.frame? = some (w, h)) :
    d.width = some w ∧ d.height = some h := by
  rw [frame?] at hframe
  split at hframe
  · next hwidth hheight =>
    split at hframe
    · cases hframe
    · obtain ⟨rfl, rfl⟩ := Prod.mk.inj (Option.some.inj hframe)
      exact ⟨hwidth, hheight⟩
  · cases hframe

/-- **Reading what was written:** a resolution if there is one, and all else as it was. -/
theorem ofJson_toJson_eq (d : Descriptor) :
    ofJson d.toJson = match d.resolution? with
      | some s => d.withResolution s
      | none => .ok d := by
  obtain ⟨filename, width, height, duration, fps, video, audio⟩ := d
  have hduration : ∀ x : Option Double, optional doubleOfJson (.ofDouble? x) = .ok x := by
    rintro (_ | x) <;> rfl
  have hsize : ∀ n : Option Int, optional intOfJson (.ofInt? n) = .ok n := by
    rintro (_ | n) <;> rfl
  rcases hresolution : resolution? _ with _ | s
  · simp [toJson, ofJson, hresolution, codecsOf, Json.get, Json.lookup, Json.isGiven, Json.ofText?,
      bind, Except.bind, hduration, hsize]
    rfl
  · have hgiven : s.isEmpty = false := by
      rw [resolution?, Option.map_eq_some_iff] at hresolution
      obtain ⟨⟨w, h⟩, -, rfl⟩ := hresolution
      simp
    simp [toJson, ofJson, hresolution, codecsOf, Json.get, Json.lookup, Json.isGiven, Json.ofText?,
      bind, Except.bind, hduration, hgiven]
    rfl

/-- A frame that was given as a resolution can be spelled. -/
theorem not_frameRefused_of_withResolution {d' : Descriptor} (h : d'.withResolution s = .ok d) :
    ¬ d.FrameRefused := by
  rcases withResolution_cases s d' with ⟨w, h', hw, hh, hok⟩ | hbad | hempty
  · obtain rfl := Except.ok.inj (hok.symm.trans h)
    rintro ⟨_, _, hframe, hnot⟩
    obtain ⟨hwidth, hheight⟩ := frame?_eq_some hframe
    obtain rfl := Option.some.inj hwidth
    obtain rfl := Option.some.inj hheight
    exact hnot ⟨hw, hh⟩
  · cases hbad.symm.trans h
  · cases hempty.symm.trans h

/-- A resolution that is given is where the size comes from. -/
theorem exists_withResolution {members : List (String × Json)}
    (h : ofJson (.object members) = .ok d)
    (hgiven : (Json.get members "resolution").isGiven = true) :
    ∃ s d', withResolution s d' = .ok d := by
  simp only [ofJson, bind, Except.bind, if_pos hgiven] at h
  -- what is read before the size has to succeed
  split at h
  · cases h
  split at h
  · cases h
  split at h
  · cases h
  split at h
  · exact ⟨_, _, h⟩
  · cases h

/-- **A frame that is refused** fails reading, in one of two ways. -/
theorem FrameRefused.ofJson_toJson (h : d.FrameRefused) :
    ∃ s, d.resolution? = some s ∧ (ofJson d.toJson = .error (.badResolution s) ∨
      ofJson d.toJson = .error (.emptyResolution s)) := by
  obtain ⟨w, h, hframe, hnot⟩ := h
  have hresolution : d.resolution? = some (toString w ++ "x" ++ toString h) := by
    rw [resolution?, hframe, Option.map_some]
  refine ⟨_, hresolution, ?_⟩
  rw [ofJson_toJson_eq, hresolution]
  dsimp only
  rw [withResolution_size]
  split
  · exact .inl rfl
  · next hshort =>
    rw [if_pos]
    · exact .inr rfl
    · by_contra hpos
      exact hnot ⟨⟨by omega, by omega⟩, ⟨by omega, by omega⟩⟩

/-- **Other media facts** are read as they were written. -/
theorem ofJson_toJson_of_not_frameRefused (h : ¬ d.FrameRefused) : ofJson d.toJson = .ok d := by
  rw [ofJson_toJson_eq]
  rcases hframe : d.frame? with _ | ⟨w, h'⟩
  · rw [resolution?, hframe]
    rfl
  · have hspelled : Spelled w ∧ Spelled h' := by
      by_contra hnot
      exact h ⟨w, h', hframe, hnot⟩
    obtain ⟨⟨hwpos, hwshort⟩, hhpos, hhshort⟩ := hspelled
    obtain ⟨hwidth, hheight⟩ := frame?_eq_some hframe
    rw [resolution?, hframe, Option.map_some]
    dsimp only
    rw [withResolution_size, if_neg (by omega), if_neg (by omega), ← hwidth, ← hheight]

/-- **Media facts survive being written** and read again, exactly unless their frame is refused. It
is refused if it has a number that cannot be spelled, and then it was not given as a resolution. -/
theorem ofJson_toJson_iff {members : List (String × Json)} (h : ofJson (.object members) = .ok d) :
    (ofJson d.toJson = .ok d ↔ ¬ d.FrameRefused) ∧
    (d.FrameRefused → (Json.get members "resolution").isGiven = false ∧
      ∃ s, d.resolution? = some s ∧ (ofJson d.toJson = .error (.badResolution s) ∨
        ofJson d.toJson = .error (.emptyResolution s))) := by
  refine ⟨⟨fun hok hrefused => ?_, ofJson_toJson_of_not_frameRefused⟩, fun hrefused => ⟨?_, ?_⟩⟩
  · obtain ⟨s, -, hbad | hempty⟩ := hrefused.ofJson_toJson
    · cases hok.symm.trans hbad
    · cases hok.symm.trans hempty
  · by_contra hgiven
    rw [Bool.not_eq_false] at hgiven
    obtain ⟨s, d', hread⟩ := exists_withResolution h hgiven
    exact not_frameRefused_of_withResolution hread hrefused
  · exact hrefused.ofJson_toJson

/-- Media facts with a resolution in capitals, a length as text, and a codec under each name. -/
def spelledFacts : List (String × Json) :=
  [("resolution", .text "+1_920X1080 "), ("width", .whole (-7)), ("duration", .text "12.5"),
    ("codecs", .object [("audio", .text "opus")]), ("codec_video", .text "h264")]

theorem ofJson_toJson_spelledFacts :
    ∃ d, ofJson (.object spelledFacts) = .ok d ∧ d.frame? = some (1920, 1080) ∧
      ofJson d.toJson = .ok d := by
  have hframe : (ofJson (.object spelledFacts)).toOption.map frame? = some (some (1920, 1080)) := by
    decide +kernel
  obtain ⟨d, hread, hsize⟩ := exists_ok_of_map hframe
  refine ⟨d, hread, hsize, (ofJson_toJson_iff hread).1.2 fun hrefused => ?_⟩
  cases ((ofJson_toJson_iff hread).2 hrefused).1

/-- **Not all media facts survive:** a frame of negative width is written as a resolution that is
refused. -/
theorem ofJson_toJson_negative :
    ∃ d, ofJson (.object [("width", .whole (-640)), ("height", .whole 360)]) = .ok d ∧
      d.frame? = some (-640, 360) ∧ ofJson d.toJson = .error (.emptyResolution "-640x360") := by
  refine ⟨{ width := some (-640), height := some 360 }, ?_, ?_, ?_⟩
  · rfl
  · rfl
  · rfl

end Descriptor

end ClipScript
