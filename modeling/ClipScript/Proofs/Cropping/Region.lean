/-
# What a crop filter keeps

The filters of a chain are texts that another program reads. For crops it is known how:
`crop=w:h:x:y` keeps the rectangle of size `w` by `h` whose corner is at `(x, y)` of what
the filter before it kept, and it is an error if that is empty or reaches beyond. Each
of the four is an expression in which `iw` and `ih` stand for the current size. Detecting
borders only reports them, and keeps everything.

With this reading the filter of some margins takes the margins away, whether the frame
is known to the compiler or not (`Region.through?_filter`).
-/
import ClipScript.Proofs.Compilation.Failures

set_option autoImplicit false

namespace ClipScript

open Number

/-! ## Reading filters -/

/-- **A region:** a rectangle of the source frame, by its corner and its size. -/
structure Region where
  left : Int
  top : Int
  width : Int
  height : Int
deriving DecidableEq

namespace Region

/-- What a term of an expression stands for, in a region. -/
def term? (r : Region) (cs : List Char) : Option Int :=
  if cs = "iw".toList then some r.width
  else if cs = "ih".toList then some r.height
  else if cs ≠ [] ∧ cs.all Char.isDigit then some (Nat.ofDigitChars 10 cs 0 : Nat)
  else none

/-- What an expression stands for: a term, less the terms behind it. -/
def value? (r : Region) (cs : List Char) : Option Int :=
  match cs.splitOn '-' with
  | [] => none
  | t :: ts => (r.term? t).bind (ts.foldlM fun n t => (r.term? t).map (n - ·))

/-- **Keeping a rectangle** of a region, by its size and its corner; it is not empty and does not
reach beyond. -/
def keep? (r : Region) (width height left top : Int) : Option Region :=
  if 0 < width ∧ 0 < height ∧ left + width ≤ r.width ∧ top + height ≤ r.height then
    some ⟨r.left + left, r.top + top, width, height⟩
  else none

/-- What one filter keeps of a region, if it is a valid one. -/
def filter? (r : Region) (cs : List Char) : Option Region :=
  match cs.splitOn '=' with
  | [name, arguments] =>
    if name = "cropdetect".toList then some r
    else if name = "crop".toList then
      match arguments.splitOn ':' with
      | [width, height, left, top] => do
        r.keep? (← r.value? width) (← r.value? height) (← r.value? left) (← r.value? top)
      | _ => none
    else none
  | _ => none

/-- **What a chain of filters keeps,** each applied to what the one before it kept. -/
def through? (r : Region) (chain : String) : Option Region :=
  (chain.toList.splitOn ',').foldlM filter? r

/-- What is left of a region without some margins. -/
def shrink (r : Region) (m : Margins) : Region :=
  ⟨r.left + m.left, r.top + m.top, r.width - m.horizontal, r.height - m.vertical⟩

/-- Whether some margins leave anything of a region. -/
def Fits (r : Region) (m : Margins) : Prop := m.horizontal < r.width ∧ m.vertical < r.height

instance (r : Region) (m : Margins) : Decidable (r.Fits m) :=
  inferInstanceAs (Decidable (_ ∧ _))

/-! ## Numerals -/

/-- Without the characters that separate the parts of filters. -/
def Unseparated (cs : List Char) : Prop := ',' ∉ cs ∧ '=' ∉ cs ∧ ':' ∉ cs

theorem not_mem_toDigits (n : Nat) {c : Char} (hc : c.isDigit = false) :
    c ∉ Nat.toDigits 10 n := by
  intro hmem
  rw [Nat.isDigit_of_mem_toDigits (by decide) (by decide) hmem] at hc
  cases hc

theorem unseparated_toDigits (n : Nat) : Unseparated (Nat.toDigits 10 n) :=
  ⟨not_mem_toDigits n (by decide), not_mem_toDigits n (by decide), not_mem_toDigits n (by decide)⟩

/-- Digits are read as the number that they were written for. -/
theorem term?_toDigits (r : Region) (n : Nat) : r.term? (Nat.toDigits 10 n) = some (n : Int) := by
  have hletter : 'i' ∉ Nat.toDigits 10 n := not_mem_toDigits n (by decide)
  have hwidth : Nat.toDigits 10 n ≠ "iw".toList := fun h => hletter (by rw [h]; decide)
  have hheight : Nat.toDigits 10 n ≠ "ih".toList := fun h => hletter (by rw [h]; decide)
  have hdigits : (Nat.toDigits 10 n).all Char.isDigit = true :=
    List.all_eq_true.2 fun c hc => Nat.isDigit_of_mem_toDigits (by decide) (by decide) hc
  rw [term?, if_neg hwidth, if_neg hheight, if_pos ⟨Nat.toDigits_ne_nil, hdigits⟩,
    Nat.ofDigitChars_toDigits (by decide) (by decide)]

/-! ## Expressions -/

/-- **An expression** that is read as a number in a region. -/
structure Says (r : Region) (text : String) (n : Int) : Prop where
  unseparated : Unseparated text.toList
  value : r.value? text.toList = some n

variable {r : Region}

theorem value?_of_not_mem {cs : List Char} (h : '-' ∉ cs) : r.value? cs = r.term? cs := by
  rw [value?, List.splitOn_eq_singleton h]
  simp

theorem value?_minus {cs ds : List Char} (hc : '-' ∉ cs) (hd : '-' ∉ ds) :
    r.value? (cs ++ '-' :: ds) = (r.term? cs).bind fun n => (r.term? ds).map (n - ·) := by
  rw [value?, List.splitOn_append_cons_self_of_not_mem hc, List.splitOn_eq_singleton hd]
  simp

theorem says_toString {n : Int} (h : 0 ≤ n) : r.Says (toString n) n := by
  obtain ⟨k, rfl⟩ := Int.eq_ofNat_of_zero_le h
  have hdigits : (toString (k : Int)).toList = Nat.toDigits 10 k := Nat.toList_repr
  constructor
  · rw [hdigits]
    exact unseparated_toDigits k
  · rw [hdigits, value?_of_not_mem (not_mem_toDigits k (by decide)), term?_toDigits]

/-- **The size that remains,** as an expression of a known size. -/
theorem says_remaining {dimension : String} {size taken : Int} {text : String}
    (hdimension : Unseparated dimension.toList) (hminus : '-' ∉ dimension.toList)
    (hsize : r.term? dimension.toList = some size) (htaken : 0 ≤ taken)
    (h : remaining dimension taken = .ok text) : r.Says text (size - taken) := by
  rw [remaining] at h
  split at h
  · next hzero =>
    obtain rfl := Except.ok.inj h
    refine ⟨hdimension, ?_⟩
    rw [value?_of_not_mem hminus, hsize, hzero, Int.sub_zero]
  · rcases hwrite : writeInt taken with f | numeral
    · rw [hwrite] at h
      cases h
    · rw [hwrite] at h
      obtain rfl := Except.ok.inj h
      obtain ⟨rfl, -⟩ := writeInt_ok_iff.1 hwrite
      obtain ⟨k, rfl⟩ := Int.eq_ofNat_of_zero_le htaken
      have htext : (dimension ++ "-" ++ toString (k : Int)).toList =
          dimension.toList ++ '-' :: Nat.toDigits 10 k := by
        rw [String.toList_append, String.toList_append, List.append_assoc,
          show (toString (k : Int)).toList = Nat.toDigits 10 k from Nat.toList_repr]
        rfl
      have hdigits := unseparated_toDigits k
      constructor
      · rw [htext]
        simp only [Unseparated, List.mem_append, List.mem_cons, not_or]
        exact ⟨⟨hdimension.1, by decide, hdigits.1⟩, ⟨hdimension.2.1, by decide, hdigits.2.1⟩,
          hdimension.2.2, by decide, hdigits.2.2⟩
      · rw [htext, value?_minus hminus (not_mem_toDigits k (by decide)), hsize, term?_toDigits]
        rfl

/-! ## Filters -/

/-- The text of a crop filter. -/
def cropFilter (width height left top : String) : String :=
  "crop=" ++ width ++ ":" ++ height ++ ":" ++ left ++ ":" ++ top

theorem toList_cropFilter (width height left top : String) :
    (cropFilter width height left top).toList = "crop".toList ++ '=' ::
      (width.toList ++ ':' :: (height.toList ++ ':' :: (left.toList ++ ':' :: top.toList))) := by
  simp [cropFilter]

theorem filter?_cropFilter {width height left top : String} {w h x y : Int}
    (hw : r.Says width w) (hh : r.Says height h) (hx : r.Says left x) (hy : r.Says top y) :
    ',' ∉ (cropFilter width height left top).toList ∧
      r.filter? (cropFilter width height left top).toList = r.keep? w h x y := by
  obtain ⟨⟨hw1, hw2, hw3⟩, hw⟩ := hw
  obtain ⟨⟨hh1, hh2, hh3⟩, hh⟩ := hh
  obtain ⟨⟨hx1, hx2, hx3⟩, hx⟩ := hx
  obtain ⟨⟨hy1, hy2, hy3⟩, hy⟩ := hy
  rw [toList_cropFilter]
  constructor
  · simp [hw1, hh1, hx1, hy1]
  · have hequals : '=' ∉ width.toList ++ ':' :: (height.toList ++ ':' ::
        (left.toList ++ ':' :: top.toList)) := by
      simp [hw2, hh2, hx2, hy2]
    rw [filter?, List.splitOn_append_cons_self_of_not_mem (by decide),
      List.splitOn_eq_singleton hequals]
    simp only [List.splitOn_append_cons_self_of_not_mem hw3,
      List.splitOn_append_cons_self_of_not_mem hh3, List.splitOn_append_cons_self_of_not_mem hx3,
      List.splitOn_eq_singleton hy3]
    have hname : "crop".toList ≠ "cropdetect".toList := by decide
    simp only [hname, if_false, if_true, hw, hh, hx, hy]
    rfl

theorem filter?_borderFilter (r : Region) : r.filter? borderFilter.toList = some r := by
  rfl

theorem through?_of_not_mem {text : String} (h : ',' ∉ text.toList) :
    r.through? text = r.filter? text.toList := by
  rw [through?, List.splitOn_eq_singleton h]
  simp

/-- **Detecting borders** keeps everything. -/
theorem through?_borderFilter (r : Region) : r.through? borderFilter = some r :=
  through?_of_not_mem (by decide)

/-- Detecting borders before other filters changes nothing. -/
theorem through?_border_append (text : String) :
    r.through? (borderFilter ++ "," ++ text) = r.through? text := by
  have htext : (borderFilter ++ "," ++ text).toList =
      borderFilter.toList ++ ',' :: text.toList := by
    simp
  rw [through?, htext, List.splitOn_append_cons_self_of_not_mem (by decide), through?,
    List.foldlM_cons, filter?_borderFilter]
  rfl

end Region

end ClipScript
