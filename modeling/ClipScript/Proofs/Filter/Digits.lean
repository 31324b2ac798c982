/-
# Numbers are passed on in ASCII

A script may write its numbers with the digits of any writing system. What a directive reads as a
number is a number from then on, and numbers are written with ASCII digits: a filter that is made
of numbers, coordinates and fixed words has no other digits outside the quotes around a text
(`asciiDigits_or_named`).

The times of a trim are not read as numbers. They are passed on as the script has them, and all
that is known of them is that they have digits, colons and points only
(`isTimeChar_iff_of_isValidTime`). So the values of a command line are times in ASCII exactly if
those of the script are (`timeValues_iff`).
-/
import ClipScript.Proofs.Filter.Unquoting
import ClipScript.Proofs.Filter.Texts

set_option autoImplicit false

namespace ClipScript

open Number Text

/-! ## Digits of ASCII -/

/-- **No other digits than those of ASCII.** -/
def AsciiDigits (cs : List Char) : Prop := ∀ c ∈ cs, Text.isDigit c = true → c.isDigit = true

namespace AsciiDigits

/-- **A text in ASCII** has the digits of ASCII: the other runs of digits lie behind it. -/
theorem of_ascii {cs : List Char} (h : (cs.all fun c => c.toNat < 128) = true) :
    AsciiDigits cs := by
  intro c hc hdigit
  have hlow : c.toNat < 128 := of_decide_eq_true (List.all_eq_true.1 h c hc)
  have hrun := forall_isDigit (P := fun c => 128 ≤ c.toNat || c.isDigit)
    (by decide +kernel) hdigit
  rcases Bool.or_eq_true_iff.1 hrun with hbehind | hascii
  · exact absurd (of_decide_eq_true hbehind) (Nat.not_le.2 hlow)
  · exact hascii

theorem append {s t : String} (hs : AsciiDigits s.toList) (ht : AsciiDigits t.toList) :
    AsciiDigits (s ++ t).toList := by
  rw [String.toList_append]
  exact List.forall_mem_append.2 ⟨hs, ht⟩

/-- **A numeral is written in ASCII.** -/
theorem of_numeral {cs : List Char} (h : Numeral cs) : AsciiDigits cs := by
  intro c hc hdigit
  have hchar := h c hc
  simp only [isNumeralChar, Bool.or_eq_true, decide_eq_true_eq] at hchar
  -- the signs, the point and the letter of a numeral are no digits
  rcases hchar with (((hascii | rfl) | rfl) | rfl) | rfl
  · exact hascii
  all_goals exact absurd hdigit (by decide)

theorem writeInt (n : Int) : Gives (fun t => AsciiDigits t.toList) (writeInt n) :=
  fun t ht => of_numeral (numeral_writeInt n t ht)

theorem formatNumber (x : Double) : Gives (fun t => AsciiDigits t.toList) (formatNumber x) :=
  fun t ht => of_numeral (numeral_formatNumber x t ht)

end AsciiDigits

/-! ## Times -/

/-- A character of a time in ASCII. -/
def isTimeChar (c : Char) : Bool := c.isDigit || c = ':' || c = '.'

/-- The words behind the options for times. -/
def timeValues : List String → List String
  | option :: value :: words =>
    if option = "-ss" ∨ option = "-to" then value :: timeValues words
    else timeValues (value :: words)
  | _ => []

theorem timeValues_trimWords (trims : List (String × String)) :
    timeValues (trims.flatMap trimWords) = trims.flatMap fun t => [t.1, t.2] := by
  induction trims with
  | nil => rfl
  | cons t trims ih =>
    rw [List.flatMap_cons, List.flatMap_cons, ← ih]
    rfl

/-- A character is what a text is split at, or in one of its parts. -/
theorem eq_or_mem_splitOn {c d : Char} {cs : List Char} (h : c ∈ cs) :
    c = d ∨ ∃ part ∈ cs.splitOn d, c ∈ part := by
  induction cs with
  | nil => cases h
  | cons e cs ih =>
    rw [List.splitOn_cons_eq_if_modifyHead]
    obtain ⟨part, parts, hparts⟩ := List.exists_cons_of_ne_nil (List.splitOn_ne_nil d cs)
    rcases List.mem_cons.1 h with rfl | h
    · by_cases hsep : c = d
      · exact .inl hsep
      · rw [if_neg (by simpa using hsep), hparts, List.modifyHead_cons]
        exact .inr ⟨_, List.mem_cons_self, List.mem_cons_self⟩
    · refine (ih h).imp_right ?_
      rintro ⟨part', hpart', hc⟩
      split
      · exact ⟨part', List.mem_cons_of_mem _ hpart', hc⟩
      · rw [hparts] at hpart' ⊢
        rw [List.modifyHead_cons]
        rcases List.mem_cons.1 hpart' with rfl | hpart'
        · exact ⟨_, List.mem_cons_self, List.mem_cons_of_mem _ hc⟩
        · exact ⟨part', List.mem_cons_of_mem _ hpart', hc⟩

namespace ClockTime

/-- The parts of a time have digits, and the seconds may have a point. -/
theorem isDigit_or_of_hasForm {t : String} (hline : '\n' ∉ t.toList) (h : hasForm t = true) :
    ∀ part ∈ t.toList.splitOn ':', ∀ c ∈ part, Text.isDigit c = true ∨ c = '.' := by
  have hseconds : ∀ {cs : List Char}, isSeconds cs = true →
      ∀ c ∈ cs, Text.isDigit c = true ∨ c = '.' := fun hcs =>
    (isPlainDecimal_chars (isPlainDecimal_of_isSeconds hcs)).2
  have hdigits : ∀ {cs : List Char}, isDigits cs = true →
      ∀ c ∈ cs, Text.isDigit c = true ∨ c = '.' := fun hcs c hc =>
    .inl ((isDigits_iff.1 hcs).2 c hc)
  rw [hasForm, dropLineFeed_eq_self hline] at h
  split at h
  · next sec hsplit =>
    rw [hsplit]
    exact List.forall_mem_singleton.2 (hseconds h)
  · next min sec hsplit =>
    obtain ⟨hmin, hsec⟩ := Bool.and_eq_true_iff.1 h
    rw [hsplit]
    exact List.forall_mem_cons.2 ⟨hdigits (Bool.and_eq_true_iff.1 hmin).1,
      List.forall_mem_singleton.2 (hseconds hsec)⟩
  · next hour min sec hsplit =>
    obtain ⟨hhourmin, hsec⟩ := Bool.and_eq_true_iff.1 h
    obtain ⟨hhour, hmin⟩ := Bool.and_eq_true_iff.1 hhourmin
    rw [hsplit]
    exact List.forall_mem_cons.2 ⟨hdigits hhour, List.forall_mem_cons.2
      ⟨hdigits (Bool.and_eq_true_iff.1 hmin).1, List.forall_mem_singleton.2 (hseconds hsec)⟩⟩
  · cases h

end ClockTime

/-- A valid time has the form of one. -/
theorem hasForm_of_isValidTime {t : String} (h : isValidTime t = .ok true) :
    ClockTime.hasForm t = true := by
  by_contra hform
  rw [isValidTime, ClockTime.read?, if_neg hform] at h
  cases h

/-- **A valid time** is in ASCII exactly if its digits are. -/
theorem isTimeChar_iff_of_isValidTime {t : String} (hline : '\n' ∉ t.toList)
    (h : isValidTime t = .ok true) :
    (∀ c ∈ t.toList, isTimeChar c = true) ↔ AsciiDigits t.toList := by
  constructor
  · intro hchars c hc hdigit
    have hchar := hchars c hc
    simp only [isTimeChar, Bool.or_eq_true, decide_eq_true_eq] at hchar
    rcases hchar with (hascii | rfl) | rfl
    · exact hascii
    all_goals exact absurd hdigit (by decide)
  · intro hascii c hc
    have hpart := ClockTime.isDigit_or_of_hasForm hline (hasForm_of_isValidTime h)
    rcases eq_or_mem_splitOn (d := ':') hc with rfl | ⟨part, hmem, hcpart⟩
    · rfl
    · rcases hpart part hmem c hcpart with hdigit | rfl
      · rw [isTimeChar, hascii c hc hdigit]
        rfl
      · rfl

/-- **The values behind the options for times** are in ASCII exactly if the digits of the trims
are. -/
theorem timeValues_iff {commands : List Command} (hplain : ∀ c ∈ commands, c.Plain) :
    (∀ v ∈ timeValues ((commands.filterMap Command.trim?).flatMap trimWords),
      ∀ c ∈ v.toList, isTimeChar c = true) ↔
    ∀ t ∈ commands.filterMap Command.trim?, AsciiDigits t.1.toList ∧ AsciiDigits t.2.toList := by
  have htimes : ∀ t ∈ commands.filterMap Command.trim?,
      ((∀ v ∈ [t.1, t.2], ∀ c ∈ v.toList, isTimeChar c = true) ↔
        AsciiDigits t.1.toList ∧ AsciiDigits t.2.toList) := by
    rintro ⟨start, stop⟩ ht
    have hvalid := hplain _ (mem_of_mem_trims ht)
    obtain ⟨hstart, hstop⟩ := hvalid start (by simp), hvalid stop (by simp)
    rw [List.forall_mem_cons, List.forall_mem_singleton,
      isTimeChar_iff_of_isValidTime hstart.1 hstart.2,
      isTimeChar_iff_of_isValidTime hstop.1 hstop.2]
  rw [timeValues_trimWords]
  constructor
  · intro h t ht
    exact (htimes t ht).1 fun v hv => h v (List.mem_flatMap.2 ⟨t, ht, hv⟩)
  · intro h v hv
    obtain ⟨t, ht, hv⟩ := List.mem_flatMap.1 hv
    exact (htimes t ht).2 (h t ht) v hv

namespace Filter

/-! ## Fragments of numbers -/

theorem asciiDigits_coordinate {sizes : Sizes} {padding : String}
    (hframe : AsciiDigits sizes.frame.toList) (hown : AsciiDigits sizes.own.toList)
    (hpadding : AsciiDigits padding.toList) (b : Band) :
    AsciiDigits (b.coordinate sizes padding).toList := by
  have hminus : AsciiDigits "-".toList := .of_ascii rfl
  cases b with
  | first => exact hpadding
  | middle =>
    have hopen : AsciiDigits "(".toList := .of_ascii rfl
    have hhalf : AsciiDigits ")/2".toList := .of_ascii rfl
    exact (((hopen.append hframe).append hminus).append hown).append hhalf
  | last => exact (((hframe.append hminus).append hown).append hminus).append hpadding

theorem asciiDigits_textCoordinates (place : Word Placement) (margin : Int) :
    Gives (fun xy => AsciiDigits xy.1.toList ∧ AsciiDigits xy.2.toList)
      (textCoordinates place margin) := by
  refine .bind fun padding hpadding => ?_
  have hnumber := AsciiDigits.writeInt _ padding hpadding
  cases place with
  | known p =>
    exact .ok ⟨asciiDigits_coordinate (.of_ascii rfl) (.of_ascii rfl) hnumber _,
      asciiDigits_coordinate (.of_ascii rfl) (.of_ascii rfl) hnumber _⟩
  | other text =>
    intro xy h
    cases h

theorem asciiDigits_scaleText (width height : Int) (aspect : Word Aspect) :
    Gives (fun t => AsciiDigits t.toList) (scaleText width height aspect) := by
  have hname : AsciiDigits "scale=".toList := .of_ascii rfl
  have hcolon : AsciiDigits ":".toList := .of_ascii rfl
  have hkeep : AsciiDigits ":force_original_aspect_ratio=decrease".toList := .of_ascii rfl
  refine .bind fun w hw => .bind fun h hh => ?_
  have hsize := ((hname.append (.writeInt _ w hw)).append hcolon).append (.writeInt _ h hh)
  split
  · exact .ok (hsize.append hkeep)
  · exact .ok hsize

theorem asciiDigits_remaining {dimension : String} (hdimension : AsciiDigits dimension.toList)
    (taken : Int) : Gives (fun t => AsciiDigits t.toList) (remaining dimension taken) := by
  have hminus : AsciiDigits "-".toList := .of_ascii rfl
  unfold remaining
  split
  · exact .ok hdimension
  · exact .bind fun t ht => .ok ((hdimension.append hminus).append (.writeInt _ t ht))

theorem asciiDigits_filter (m : Margins) (d : Option Descriptor) :
    Gives (fun t => AsciiDigits t.toList) (m.filter d) := by
  have hname : AsciiDigits "crop=".toList := .of_ascii rfl
  have hcolon : AsciiDigits ":".toList := .of_ascii rfl
  have hsized : ∀ w h : String, AsciiDigits w.toList → AsciiDigits h.toList →
      Gives (fun t => AsciiDigits t.toList) (do
        return "crop=" ++ w ++ ":" ++ h ++ ":" ++ (← writeInt m.left) ++ ":" ++
          (← writeInt m.top)) := by
    intro w h hw hh
    refine .bind fun left hleft => .bind fun top htop => .ok ?_
    have hsize := (((hname.append hw).append hcolon).append hh).append hcolon
    exact ((hsize.append (.writeInt _ left hleft)).append hcolon).append (.writeInt _ top htop)
  rw [Margins.filter]
  refine .bind fun _ _ => ?_
  split
  · exact .bind fun w hw => .bind fun h hh => hsized w h (.writeInt _ w hw) (.writeInt _ h hh)
  · exact .bind fun w hw => .bind fun h hh =>
      hsized w h (asciiDigits_remaining (.of_ascii rfl) _ w hw)
        (asciiDigits_remaining (.of_ascii rfl) _ h hh)

theorem asciiDigits_borderFilter : AsciiDigits borderFilter.toList := .of_ascii rfl

theorem asciiDigits_cropText (size : Int) (side : Word Side) (d : Option Descriptor) :
    Gives (fun t => AsciiDigits t.toList) (cropText size side d) := by
  rw [cropText]
  split
  · exact .ok asciiDigits_borderFilter
  · exact asciiDigits_filter _ d

theorem asciiDigits_mergedCropText (m : Margins) (detect : Bool) (d : Option Descriptor) :
    Gives (fun t => AsciiDigits t.toList) (mergedCropText m detect d) := by
  have hcomma : AsciiDigits ",".toList := .of_ascii rfl
  rw [mergedCropText]
  split
  · exact .ok asciiDigits_borderFilter
  · refine .map fun t ht => ?_
    have hcrop := asciiDigits_filter m d t ht
    split
    · exact (asciiDigits_borderFilter.append hcomma).append hcrop
    · exact hcrop

theorem asciiDigits_intercalate {ts : List String} (h : ∀ t ∈ ts, AsciiDigits t.toList) :
    AsciiDigits (String.intercalate "," ts).toList := by
  have hcomma : AsciiDigits ",".toList := .of_ascii rfl
  induction ts with
  | nil => exact .of_ascii rfl
  | cons t ts ih =>
    obtain ⟨ht, hts⟩ := List.forall_mem_cons.1 h
    by_cases hnil : ts = []
    · rw [hnil, String.intercalate_singleton]
      exact ht
    · rw [String.intercalate_cons_of_ne_nil hnil]
      exact (ht.append hcomma).append (ih hts)

theorem asciiDigits_fade {direction : Word FadeDirection} {duration : Double}
    {output : Option Double} {n : Nat} {t : String}
    (h : (fadeStep direction duration output n).outcome = .ok (some (.fragment t))) :
    AsciiDigits t.toList := by
  have hin : AsciiDigits "fade=t=in:st=0:d=".toList := .of_ascii rfl
  have hout : AsciiDigits "fade=t=out:st=".toList := .of_ascii rfl
  have hd : AsciiDigits ":d=".toList := .of_ascii rfl
  obtain ⟨text, parts, htext, rfl, hparts⟩ := exists_parts_of_fadeStep h
  have hlength := AsciiDigits.formatNumber _ text htext
  refine asciiDigits_intercalate fun p hp => ?_
  rcases hparts p hp with rfl | ⟨start, hstart, rfl⟩
  · exact hin.append hlength
  · have hstart : AsciiDigits start.toList := by
      cases output with
      | none =>
        obtain rfl := Except.ok.inj hstart
        exact .of_ascii rfl
      | some length => exact .formatNumber _ start hstart
    exact ((hout.append hstart).append hd).append hlength

/-! ## Fragments with a text -/

/-- **Drawing a text** has other digits in its quotes only. -/
theorem asciiDigits_outside_drawText (text : String) (place : Word Placement)
    (alignment : Alignment) (margin : Int) :
    Gives (fun t => AsciiDigits (outside t)) (drawText text place (.known alignment) margin) := by
  have hname : AsciiDigits (outside "drawtext=text=") := .of_ascii rfl
  have hfont : AsciiDigits ":fontsize=24:fontcolor=white:x=".toList := .of_ascii rfl
  have hy : AsciiDigits ":y=".toList := .of_ascii rfl
  have halign : AsciiDigits (":text_align=" ++ (Word.known alignment).text).toList := by
    cases alignment <;> exact .of_ascii rfl
  have hquoted : AsciiDigits (outside ("'" ++ drawn text ++ "'")) := by
    intro c hc hdigit
    rw [outside, toList_drawn] at hc
    -- only signs of quoting are outside
    rcases readsQuoted_drawnChar.outsideFrom_quoted hc with rfl | rfl
    all_goals exact absurd hdigit (by decide)
  have hall : ∀ rest : String, AsciiDigits rest.toList →
      AsciiDigits (outside ("drawtext=text=" ++ ("'" ++ drawn text ++ "'") ++ rest)) := by
    intro rest hrest
    have hopened : Mode.outside.after "drawtext=text=".toList = .outside := by decide
    rw [outside, String.toList_append, outsideFrom_append,
      show Mode.outside.after ("drawtext=text=" ++ ("'" ++ drawn text ++ "'")).toList = .outside
        from Closed.append hopened (mute_drawn text).closed, String.toList_append,
      outsideFrom_append, hopened]
    exact List.forall_mem_append.2 ⟨List.forall_mem_append.2 ⟨hname, hquoted⟩,
      fun c hc => hrest c (mem_of_mem_outsideFrom hc)⟩
  refine .bind fun xy hxy => .ok ?_
  obtain ⟨hx, hyy⟩ := asciiDigits_textCoordinates place margin xy hxy
  have hrest := ((hfont.append hx).append hy).append hyy
  rw [drawn_between_quotes]
  split
  · simpa only [String.append_assoc] using hall _ hrest
  · simpa only [String.append_assoc] using hall _ (hrest.append halign)

/-- **A fragment without the name of a file** has other digits in quotes only; any other is a single
filter that is an image or subtitles. -/
theorem asciiDigits_or_named {ctx : Context} {n : Nat} {c : Command} {t : String}
    (hc : c.isPicture = true) (ha : c.Aligned)
    (h : (build ctx n c).outcome = .ok (some (.fragment t))) :
    AsciiDigits (outside t) ∨ ∃ name ∈ ["null", "subtitles"], Named name t := by
  have hall : AsciiDigits t.toList → AsciiDigits (outside t) :=
    fun ht c hc => ht c (mem_of_mem_outsideFrom hc)
  rcases c with _ | _ | _ | ⟨width, height, aspect⟩ | ⟨size, side⟩ | ⟨m, detect⟩ |
    ⟨direction, duration⟩ | ⟨kind, content, place⟩ | ⟨text, place, alignment, margin⟩ | cycle |
    _ | _ | _
  case scale =>
    exact .inl (hall (asciiDigits_scaleText width height aspect t (eq_of_fragmentOf h)))
  case crop => exact .inl (hall (asciiDigits_cropText size side _ t (eq_of_fragmentOf h)))
  case mergedCrop =>
    exact .inl (hall (asciiDigits_mergedCropText m detect _ t (eq_of_fragmentOf h)))
  case fade => exact .inl (hall (asciiDigits_fade h))
  case burn =>
    rcases kind with (_ | _ | _) | _
    case known.text =>
      exact .inl (asciiDigits_outside_drawText content place .left 0 t (eq_of_fragmentOf h))
    case known.subtitles =>
      obtain rfl := Except.ok.inj (@eq_of_fragmentOf (.ok _) t h)
      exact .inr ⟨_, .tail _ (.head _), (titled_subtitlesText (Text.unquoted content) place).named⟩
    all_goals exact .inr ⟨_, .head _, named_imageText _ n place t (eq_of_fragmentOf h)⟩
  case caption =>
    obtain ⟨a, rfl⟩ := ha
    exact .inl (asciiDigits_outside_drawText text place a margin t (eq_of_fragmentOf h))
  case deduplicate =>
    have hname : AsciiDigits "decimate=cycle=".toList := .of_ascii rfl
    have htext : Gives (fun t => AsciiDigits t.toList)
        ((writeInt cycle).map ("decimate=cycle=" ++ ·)) :=
      .map fun w hw => hname.append (.writeInt _ w hw)
    exact .inl (hall (htext t (eq_of_fragmentOf h)))
  all_goals cases hc

/-! ## Filters of a chain -/

/-- **What is outside in the pieces** of a text is outside in the text. -/
theorem outsideFrom_cutFrom {isSeparator : Char → Bool} (hsep : Separates isSeparator) (m : Mode)
    (cs : List Char) :
    ∃ piece pieces, cutFrom isSeparator m cs = piece :: pieces ∧
      (∀ c ∈ outsideFrom m piece, c ∈ outsideFrom m cs) ∧
      ∀ p ∈ pieces, ∀ c ∈ outsideFrom .outside p, c ∈ outsideFrom m cs := by
  induction cs generalizing m with
  | nil => exact ⟨[], [], rfl, fun c hc => hc, fun p hp => (List.not_mem_nil hp).elim⟩
  | cons d cs ih =>
    rw [cutFrom]
    split
    · -- behind a separator the scan is outside, as it is at the start of a piece
      next hcut =>
      obtain ⟨rfl, hd⟩ := hcut
      obtain ⟨piece, pieces, heq, hpiece, hpieces⟩ := ih .outside
      have hmore : ∀ c ∈ outsideFrom .outside cs, c ∈ outsideFrom .outside (d :: cs) := by
        intro c hc
        rw [outsideFrom, if_neg (by decide), Mode.step_of_isMark (hsep d hd)]
        exact List.mem_cons_of_mem _ hc
      rw [heq]
      refine ⟨_, _, rfl, fun c hc => (List.not_mem_nil hc).elim, ?_⟩
      exact List.forall_mem_cons.2 ⟨fun c hc => hmore c (hpiece c hc),
        fun p hp c hc => hmore c (hpieces p hp c hc)⟩
    · obtain ⟨piece, pieces, heq, hpiece, hpieces⟩ := ih (m.step d)
      have hmore : ∀ c ∈ outsideFrom (m.step d) cs, c ∈ outsideFrom m (d :: cs) := by
        intro c hc
        rw [outsideFrom]
        split
        · exact hc
        · exact List.mem_cons_of_mem _ hc
      rw [heq, List.modifyHead_cons]
      refine ⟨_, _, rfl, fun c hc => ?_, fun p hp c hc => hmore c (hpieces p hp c hc)⟩
      rw [outsideFrom] at hc ⊢
      split at hc
      · next hquoted =>
        rw [if_pos hquoted]
        exact hpiece c hc
      · next hquoted =>
        rw [if_neg hquoted]
        exact List.mem_cons.2 ((List.mem_cons.1 hc).imp_right (hpiece c))

/-- **What is outside in a filter** of a text is outside in the text. -/
theorem mem_outside_of_mem_filtersOf {t : String} {f : List Char} (hf : f ∈ filtersOf t) {c : Char}
    (hc : c ∈ outsideFrom .outside f) : c ∈ outside t := by
  obtain ⟨piece, pieces, heq, hpiece, hpieces⟩ :=
    outsideFrom_cutFrom separates_comma .outside t.toList
  rw [filtersOf_eq, cut, heq] at hf
  rcases List.mem_cons.1 hf with rfl | hf
  · exact hpiece c hc
  · exact hpieces f hf c hc

/-- The filters that are made of numbers, coordinates, fixed words and texts to be drawn. -/
def numericFilters : List String := ["crop", "cropdetect", "scale", "fade", "decimate", "drawtext"]

/-- **A filter in ASCII:** it has no other digits outside quotes, if it is one of these. -/
def WritesAscii (f : List Char) : Prop :=
  String.ofList (f.takeWhile (· != '=')) ∈ numericFilters → AsciiDigits (outsideFrom .outside f)

theorem writesAscii_of_build {ctx : Context} {n : Nat} {c : Command} {t : String}
    (hc : c.isPicture = true) (ha : c.Aligned)
    (h : (build ctx n c).outcome = .ok (some (.fragment t))) :
    ∀ f ∈ filtersOf t, WritesAscii f := by
  intro f hf hname
  rcases asciiDigits_or_named hc ha h with hascii | ⟨name, hmem, hnamed⟩
  · exact fun d hd => hascii d (mem_outside_of_mem_filtersOf hf hd)
  · -- a filter with the name of a file is none of these
    have hapart : ∀ name ∈ ["null", "subtitles"], Apart numericFilters name := by decide
    rw [hnamed.single.filtersOf_eq, List.mem_singleton] at hf
    rw [hf] at hname
    exact absurd (String.toList_ofList).symm
      ((hapart name hmem).takeWhile_ne hname hnamed.opens)

theorem Builds.writesAscii {ctx : Context} {n : Nat} {cs : List Command} {ts : List String}
    (h : Builds ctx n cs ts) (ha : ∀ c ∈ cs, c.Aligned) :
    ∀ t ∈ ts, ∀ f ∈ filtersOf t, WritesAscii f := by
  induction h with
  | nil => exact fun t ht => (List.not_mem_nil ht).elim
  | picture hpicture hbuilt _ ih =>
    exact List.forall_mem_cons.2 ⟨writesAscii_of_build hpicture (ha _ List.mem_cons_self) hbuilt,
      ih fun c hc => ha c (List.mem_cons_of_mem _ hc)⟩
  | other _ _ ih => exact ih fun c hc => ha c (List.mem_cons_of_mem _ hc)

/-- **The filters of a chain** are in ASCII. -/
theorem Builds.writesAscii_intercalate {ctx : Context} {n : Nat} {cs : List Command}
    {ts : List String} (h : Builds ctx n cs ts) (ha : ∀ c ∈ cs, c.Aligned) :
    ∀ f ∈ filtersOf (String.intercalate "," ts), WritesAscii f := by
  intro f hf
  by_cases hnil : ts = []
  · subst hnil
    obtain rfl : f = [] := List.mem_singleton.1 hf
    exact fun _ c hc => (List.not_mem_nil hc).elim
  · rw [filtersOf_intercalate hnil (h.closed ha), List.mem_flatMap] at hf
    obtain ⟨t, ht, hf⟩ := hf
    exact h.writesAscii ha t ht f hf

end Filter

/-! ## Command lines -/

/-- **Numbers reach the encoder in ASCII,** in whatever digits a script writes them, but for the
times of its trims. The filters of a command line that are made of numbers have no other digits
outside quotes; the values for times have digits, colons and points, and they are all in ASCII
exactly if the times of the trims are. -/
theorem numbers_in_ascii {text : String} {descriptor : Option Descriptor} {settings : Settings}
    {c : Compilation} (h : compile text descriptor settings = .ok c) :
    ∃ l : CommandLine, l.Fits c.commands descriptor settings ∧
      c.args = l.args c.commands settings.overwrite ∧
      (∀ f ∈ Filter.filtersOf (String.intercalate "," l.fragments), Filter.WritesAscii f) ∧
      ((∀ v ∈ timeValues (c.args.takeWhile (· != "-i")), ∀ ch ∈ v.toList, isTimeChar ch = true) ↔
        ∀ t ∈ c.commands.filterMap Command.trim?,
          AsciiDigits t.1.toList ∧ AsciiDigits t.2.toList) := by
  obtain ⟨_, -, hdraft⟩ := compile_ok h
  obtain ⟨l, hfits, hargs⟩ := exists_commandLine hdraft
  have hoptions : ∀ d ∈ c.commands, d.NoOption :=
    forall_command_of_compile (fun _ => trivial) (fun _ hd => hd.noOption) h
  have hplain : ∀ d ∈ c.commands, d.Plain :=
    forall_command_of_compile (fun _ => trivial) (fun _ hd => hd.plain) h
  refine ⟨l, hfits, hargs, ?_, ?_⟩
  · exact hfits.fragments.writesAscii_intercalate
      (aligned_of_mergeCrops (aligned_of_compile h) hfits.merged)
  · rw [hargs, l.args_eq, List.append_assoc, List.append_assoc,
      List.takeWhile_append_of_pos (trimWords_ne_input hoptions)]
    have hbehind : (["-i", l.source] ++ (l.outputWords c.commands settings.overwrite ++
        [l.output])).takeWhile (· != "-i") = [] := rfl
    rw [hbehind, List.append_nil]
    exact timeValues_iff hplain

/-- A script with Arabic digits, but for the times of its trim. -/
def arabicScript : String :=
  "trim from 1 to 9\nscale to \u0666\u0664\u0660x\u0663\u0666\u0660 preserve aspect ratio\n" ++
    "crop \u0661\u0660px from left\nfade out for \u0662s\nremove_frames every \u0665\n" ++
    "add_text \"\u0663\" at top-left with margin \u0665px"

theorem numbers_in_ascii_arabicScript :
    ∃ (c : Compilation) (l : CommandLine), compile arabicScript none {} = .ok c ∧
      c.args = l.args c.commands false ∧
      c.args = ["-ss", "1", "-to", "9", "-i", "input.mp4", "-vf",
        "scale=640:360:force_original_aspect_ratio=decrease,crop=iw-10:ih:10:0," ++
          "fade=t=out:st=6:d=2,decimate=cycle=5," ++
          "drawtext=text='\u0663':fontsize=24:fontcolor=white:x=15:y=15", "output.mp4"] ∧
      (∀ f ∈ Filter.filtersOf (String.intercalate "," l.fragments), Filter.WritesAscii f) ∧
      ∀ v ∈ timeValues (c.args.takeWhile (· != "-i")), ∀ ch ∈ v.toList, isTimeChar ch = true := by
  have hresult : (compile arabicScript none {}).toOption.map
      (fun c => (c.args, c.commands.filterMap Command.trim?)) =
      some (["-ss", "1", "-to", "9", "-i", "input.mp4", "-vf",
        "scale=640:360:force_original_aspect_ratio=decrease,crop=iw-10:ih:10:0," ++
          "fade=t=out:st=6:d=2,decimate=cycle=5," ++
          "drawtext=text='\u0663':fontsize=24:fontcolor=white:x=15:y=15", "output.mp4"],
        [("1", "9")]) := by
    decide +kernel
  obtain ⟨c, hc, hparts⟩ := exists_ok_of_map hresult
  obtain ⟨hargs, htrims⟩ := Prod.mk.inj hparts
  obtain ⟨l, -, hl, hfilters, htimes⟩ := numbers_in_ascii hc
  refine ⟨c, l, hc, hl, hargs, hfilters, htimes.2 ?_⟩
  rw [htrims]
  exact List.forall_mem_singleton.2 ⟨.of_ascii rfl, .of_ascii rfl⟩

/-- **Not every number reaches the encoder in ASCII:** the times of a trim in Arabic digits. -/
theorem trim_in_arabic_digits :
    ∃ c, compile "trim from \u0661 to \u0665" none {} = .ok c ∧
      timeValues (c.args.takeWhile (· != "-i")) = ["\u0661", "\u0665"] ∧
      isTimeChar '\u0661' = false := by
  have hresult : (compile "trim from \u0661 to \u0665" none {}).toOption.map
      (fun c => timeValues (c.args.takeWhile (· != "-i"))) = some ["\u0661", "\u0665"] := by
    decide +kernel
  obtain ⟨c, hc, htimes⟩ := exists_ok_of_map hresult
  exact ⟨c, hc, htimes, by decide⟩

end ClipScript
