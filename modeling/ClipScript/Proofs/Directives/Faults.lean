/-
# When a directive fails with a fault

Each of the ten patterns reads some of its parameters. The slots say which shapes
these have, so the readers of `Conversions` apply, and what is left of the conditions
and constructors cannot fail. Five patterns read no whole number. The other five do,
and `Overruns` lists where it stands in the directive.

A directive fails with a fault exactly if such a number has too many digits
(`match_failsFor`). In one direction the walk is done and has bound what is read; in
the other the texts are given, and the walk along them is.
-/
import ClipScript.Proofs.Directives.Conversions
import ClipScript.Proofs.Directives.Outcomes
import ClipScript.Proofs.Directives.Patterns

set_option autoImplicit false

namespace ClipScript

open Number

variable {p : Pattern Command} {texts : List String} {bs : Bindings} {used n : Nat}

/-! ## Numerals in directives -/

/-- **A directive with a numeral of `n` digits,** which is too many, where a number is read. The
texts are those of the directive, its keyword first, and whatever follows. -/
inductive Overruns (texts : List String) (n : Nat) : Prop where
  | cycle {cycle : String} {after : List String}
      (eq : texts = "remove_frames" :: "every" :: cycle :: after)
      (long : TooLong cycle.toList n)
  | start {start stop : String} {after : List String}
      (eq : texts = "trim" :: "from" :: start :: "to" :: stop :: after)
      (line : Shape.line.accepts start = true) (line' : Shape.line.accepts stop = true)
      (long : LongTime start n)
  /-- The end of a trim is only read if its start is valid. -/
  | stop {start stop : String} {after : List String}
      (eq : texts = "trim" :: "from" :: start :: "to" :: stop :: after)
      (line : Shape.line.accepts start = true) (line' : Shape.line.accepts stop = true)
      (valid : isValidTime start = .ok true) (long : LongTime stop n)
  | size {size aspect : String} {after : List String}
      (eq : texts = "scale" :: "to" :: size :: aspect :: "aspect" :: "ratio" :: after)
      (aspect_mem : aspect ∈ wordsOf Aspect) (long : LongSize size n)
  | pixels {pixels side : String} {after : List String}
      (eq : texts = "crop" :: pixels :: "from" :: side :: after)
      (side_mem : side ∈ wordsOf Side) (long : LongPixels pixels n)
  | margin {text place margin : String} {after : List String}
      (eq : texts = "add_text" :: text :: "at" :: place :: after)
      (quoted : Shape.quotedLine.accepts text = true) (place_mem : place ∈ cornerWords)
      (here : HasMargin margin after) (long : LongPixels margin n)

/-- Where all numerals are short, none is too long. -/
theorem not_overruns (h : ∀ w ∈ texts, ShortNumerals w.toList) (n : Nat) : ¬ Overruns texts n := by
  rintro (⟨rfl, hlong⟩ | ⟨rfl, -, -, hlong⟩ | ⟨rfl, -, -, -, hlong⟩ | ⟨rfl, -, hlong⟩ |
    ⟨rfl, -, hlong⟩ | @⟨text, place, margin, after, rfl, -, -, hhere, hlong⟩)
  case cycle => exact hlong.not_short (List.infix_refl _) (h _ (by simp))
  case margin =>
    have hmem : margin ∈ after := by
      rcases hhere with ⟨rfl⟩ | ⟨-, rfl⟩
      all_goals simp
    exact hlong.not_short (h margin (by simp [hmem]))
  all_goals exact hlong.not_short (h _ (by simp))

/-! ## What is read has its shape -/

theorem LongPixels.accepts {t : String} (h : LongPixels t n) : Shape.pixels.accepts t = true := by
  obtain ⟨ds, heq, hlong⟩ := h
  have hdigits := (isDigits_iff.1 hlong.digits).2
  have hp : ¬ Text.isDigit 'p' = true := by decide
  show Shape.isDigitsThen ['p', 'x'] t.toList = true
  rw [heq, Shape.isDigitsThen, List.takeWhile_append_of_pos hdigits,
    List.dropWhile_append_of_pos hdigits, List.takeWhile_cons_of_neg hp,
    List.dropWhile_cons_of_neg hp, List.append_nil, hlong.digits]
  rfl

theorem LongSize.accepts {t : String} (h : LongSize t n) :
    Shape.dimensions.accepts t = true := by
  obtain ⟨w, d, heq, hw, hd, -⟩ := h
  have hdigits := (isDigits_iff.1 hw).2
  have hx : ¬ Text.isDigit 'x' = true := by decide
  have htake : t.toList.takeWhile Text.isDigit = w := by
    rw [heq, List.takeWhile_append_of_pos hdigits, List.takeWhile_cons_of_neg hx, List.append_nil]
  have hdrop : t.toList.dropWhile Text.isDigit = 'x' :: d := by
    rw [heq, List.dropWhile_append_of_pos hdigits, List.dropWhile_cons_of_neg hx]
  simp only [Shape.dimensions, htake, hdrop, hw, hd, Bool.and_self]

/-! ## Reading parameters -/

/-- **Reading a parameter** of a directive that fits: a text with the shape of its slot, or the
fallback of the slot. -/
theorem text_of_walkFrom (hp : p ∈ directivePatterns) (h : p.walkFrom texts = .done bs used)
    {name : String} {s : Slot} (hs : p.slots.find? (fun s => s.parameter? == some name) = some s) :
    ∃ v, bs.text name = .ok v ∧
      ((v ∈ texts ∧ s.shape.accepts v = true) ∨ s.fallback = some v) :=
  walkFrom_text (named_directives p hp) h (List.mem_of_find?_eq_some hs)
    (by simpa using List.find?_some hs)

/-- A parameter without a fallback is a text of the directive. -/
theorem text_of_walkFrom_required (hp : p ∈ directivePatterns)
    (h : p.walkFrom texts = .done bs used) {name : String} {s : Slot}
    (hs : p.slots.find? (fun s => s.parameter? == some name) = some s)
    (hfallback : s.fallback = none) :
    ∃ v, s.shape.accepts v = true ∧ bs.text name = .ok v := by
  obtain ⟨v, hv, ⟨-, ha⟩ | hf⟩ := text_of_walkFrom hp h hs
  · exact ⟨v, ha, hv⟩
  · rw [hfallback] at hf
    cases hf

/-! ## What a pattern makes -/

/-- A pattern that accepts all parameters fails where its constructor does. -/
theorem make_of_create {P : Nat → Prop} (hv : p.validate bs = .ok .accepted)
    (hc : FailsFor (p.create bs) P) : FailsFor (p.make? bs) P := by
  rw [Pattern.make?, hv]
  exact hc.bind_ok fun _ _ => ⟨_, rfl⟩

/-- A pattern whose constructor does not fail for what it accepts fails where its condition
does. -/
theorem make_of_validate {P : Nat → Prop} (hv : FailsFor (p.validate bs) P)
    (hc : p.validate bs = .ok .accepted → ∃ c, p.create bs = .ok c) : FailsFor (p.make? bs) P := by
  rw [Pattern.make?]
  refine hv.bind_ok fun verdict hverdict => ?_
  rcases verdict with _ | detail
  · obtain ⟨c, hc⟩ := hc hverdict
    exact ⟨some c, by simp only [hc]; rfl⟩
  · exact ⟨none, rfl⟩

/-- Whether a burned file is of its kind is always known. -/
theorem validateBurn_ok {kind content : String} (hk : bs.text "kind" = .ok kind)
    (hc : bs.text "content" = .ok content) : ∃ verdict, validateBurn bs = .ok verdict := by
  rw [validateBurn, hk, hc]
  simp only [bind, Except.bind]
  split
  all_goals exact ⟨_, rfl⟩

theorem make_removeFrames (h : removeFramesPattern.walkFrom texts = .done bs used) :
    FailsFor (removeFramesPattern.make? bs) (Overruns ("remove_frames" :: texts)) := by
  obtain ⟨cycle, after, rfl, hcycle, rfl, -⟩ := walkFrom_removeFrames.1 h
  have hread : FailsFor (readInt cycle) (TooLong cycle.toList) := by
    have hread := readInt_failsFor hcycle
    rwa [String.ofList_toList] at hread
  have hvalidate : FailsFor (validateCycle [("cycle", some cycle)]) (TooLong cycle.toList) :=
    hread.bind_ok fun _ _ => ⟨_, rfl⟩
  have hmake : FailsFor (removeFramesPattern.make? [("cycle", some cycle)])
      (TooLong cycle.toList) := by
    -- what the condition could read, the constructor reads again
    refine make_of_validate hvalidate fun haccepted => ?_
    obtain ⟨k, hk⟩ := hread.ok_of_not (hvalidate.not_of_ok haccepted)
    refine ⟨.deduplicate k, ?_⟩
    show (readInt cycle >>= fun k => Except.ok (Command.deduplicate k)) = _
    rw [hk]
    rfl
  -- no other directive has this keyword
  refine hmake.congr fun n => ⟨fun hn => .cycle rfl hn, ?_⟩
  rintro (⟨heq, hlong⟩ | ⟨heq, -⟩ | ⟨heq, -⟩ | ⟨heq, -⟩ | ⟨heq, -⟩ | ⟨heq, -⟩)
  case cycle =>
    cases heq
    exact hlong
  all_goals exact absurd (List.cons.inj heq).1 (by decide)

/-- Times are compared only once they are known to be valid. -/
theorem validateTrim_failsFor {start stop : String} (hline : Shape.line.accepts start = true)
    (hline' : Shape.line.accepts stop = true) :
    FailsFor (validateTrim [("start", some start), ("end", some stop)])
      fun n => LongTime start n ∨ isValidTime start = .ok true ∧ LongTime stop n := by
  have hl := (Shape.accepts_line.1 hline).2
  have hl' := (Shape.accepts_line.1 hline').2
  have hbind : FailsFor (validateTrim [("start", some start), ("end", some stop)]) fun n =>
      LongTime start n ∨ ∃ valid, isValidTime start = .ok valid ∧
        (valid = true ∧ LongTime stop n) := by
    -- the start is read first, and the end only if the start is valid
    refine (isValidTime_failsFor hl).bind fun valid hvalid => ?_
    by_cases hv : valid = true
    · subst hv
      have hstop := isValidTime_failsFor hl'
      refine FailsFor.congr (hstop.bind_ok fun valid' hvalid' => ?_)
        fun n => ⟨fun hn => ⟨rfl, hn⟩, And.right⟩
      by_cases hv' : valid' = true
      · subst hv'
        -- times in bounds are short enough to be compared
        obtain ⟨x, hx, -⟩ := secondsOf_of_isValidTime hl hvalid
        obtain ⟨y, hy, -⟩ := secondsOf_of_isValidTime hl' hvalid'
        simp only [hx, hy, Bool.not_true, Bool.false_eq_true, if_false, bind, Except.bind]
        split
        · exact ⟨_, rfl⟩
        · exact ⟨_, rfl⟩
      · simp only [hv', Bool.not_false, if_true]
        exact ⟨_, rfl⟩
    · -- an invalid start settles it, whatever the end is
      rw [Bool.not_eq_true] at hv
      subst hv
      exact .never ⟨_, rfl⟩ fun n hn => Bool.false_ne_true hn.1
  refine hbind.congr fun n => or_congr_right ⟨?_, ?_⟩
  · rintro ⟨_, hvalid, rfl, hlong⟩
    exact ⟨hvalid, hlong⟩
  · rintro ⟨hvalid, hlong⟩
    exact ⟨true, hvalid, rfl, hlong⟩

theorem make_trim (h : trimPattern.walkFrom texts = .done bs used) :
    FailsFor (trimPattern.make? bs) (Overruns ("trim" :: texts)) := by
  obtain ⟨start, stop, after, rfl, hstart, hstop, rfl, -⟩ := walkFrom_trim_done.1 h
  have hmake : FailsFor (trimPattern.make? [("start", some start), ("end", some stop)])
      fun n => LongTime start n ∨ isValidTime start = .ok true ∧ LongTime stop n :=
    make_of_validate (validateTrim_failsFor hstart hstop) fun _ => ⟨.trim start stop, rfl⟩
  refine hmake.congr fun n => ⟨?_, ?_⟩
  · rintro (hlong | ⟨hvalid, hlong⟩)
    · exact .start rfl hstart hstop hlong
    · exact .stop rfl hstart hstop hvalid hlong
  · rintro (⟨heq, -⟩ | ⟨heq, -, -, hlong⟩ | ⟨heq, -, -, hvalid, hlong⟩ | ⟨heq, -⟩ | ⟨heq, -⟩ |
      ⟨heq, -⟩)
    case start =>
      cases heq
      exact .inl hlong
    case stop =>
      cases heq
      exact .inr ⟨hvalid, hlong⟩
    all_goals exact absurd (List.cons.inj heq).1 (by decide)

theorem make_scale (h : scalePattern.walkFrom texts = .done bs used) :
    FailsFor (scalePattern.make? bs) (Overruns ("scale" :: texts)) := by
  obtain ⟨size, aspect, after, rfl, hsize, haspect, rfl, -⟩ := walkFrom_scale.1 h
  have hread := readSize_failsFor hsize
  have hvalidate : FailsFor (validateSize [("size", some size), ("aspect", some aspect)])
      (LongSize size) :=
    hread.bind_ok fun _ _ => ⟨_, rfl⟩
  have hmake : FailsFor (scalePattern.make? [("size", some size), ("aspect", some aspect)])
      (LongSize size) := by
    -- what the condition could read, the constructor reads again
    refine make_of_validate hvalidate fun haccepted => ?_
    obtain ⟨⟨w, d⟩, hwd⟩ := hread.ok_of_not (hvalidate.not_of_ok haccepted)
    refine ⟨.scale w d (.ofText aspect), ?_⟩
    show (readSize size >>= _) = _
    rw [hwd]
    rfl
  refine hmake.congr fun n => ⟨fun hn => .size rfl haspect hn, ?_⟩
  rintro (⟨heq, -⟩ | ⟨heq, -⟩ | ⟨heq, -⟩ | ⟨heq, -, hlong⟩ | ⟨heq, -⟩ | ⟨heq, -⟩)
  case size =>
    cases heq
    exact hlong
  all_goals exact absurd (List.cons.inj heq).1 (by decide)

theorem make_crop (h : cropPattern.walkFrom texts = .done bs used) :
    FailsFor (cropPattern.make? bs) (Overruns ("crop" :: texts)) := by
  obtain ⟨pixels, side, after, rfl, hpixels, hside, rfl, -⟩ := walkFrom_crop.1 h
  have hcreate : FailsFor (createCrop [("pixels", some pixels), ("side", some side)])
      (LongPixels pixels) := by
    rw [createCrop, show Bindings.text _ "pixels" = .ok pixels from rfl,
      show Bindings.text _ "side" = .ok side from rfl]
    exact .ok_bind <| (readPixels_failsFor hpixels).bind_ok fun _ _ => ⟨_, rfl⟩
  have hmake : FailsFor (cropPattern.make? [("pixels", some pixels), ("side", some side)])
      (LongPixels pixels) := make_of_create rfl hcreate
  refine hmake.congr fun n => ⟨fun hn => .pixels rfl hside hn, ?_⟩
  rintro (⟨heq, -⟩ | ⟨heq, -⟩ | ⟨heq, -⟩ | ⟨heq, -⟩ | ⟨heq, -, hlong⟩ | ⟨heq, -⟩)
  case pixels =>
    cases heq
    exact hlong
  all_goals exact absurd (List.cons.inj heq).1 (by decide)

theorem make_addText (h : addTextPattern.walkFrom texts = .done bs used) :
    FailsFor (addTextPattern.make? bs) (Overruns ("add_text" :: texts)) := by
  have hp : addTextPattern ∈ directivePatterns := List.getElem_mem _
  obtain ⟨alignment, halignment, -⟩ := @text_of_walkFrom _ _ _ _ hp h "alignment" _ rfl
  obtain ⟨_, -, htext⟩ := @text_of_walkFrom_required _ _ _ _ hp h "text" _ rfl rfl
  obtain ⟨_, -, hplace⟩ := @text_of_walkFrom_required _ _ _ _ hp h "place" _ rfl rfl
  -- the slots that must be there fit, so the walk is done in the way that is known
  have hfit : fits addTextSlots texts = true := by
    obtain ⟨_, _, _, _, -, -, hparts⟩ := parts_addTextPattern
    rw [Pattern.walkFrom, hparts] at h
    exact fits_of_walk h
  obtain ⟨bs', used', h', hbound, helse⟩ := walkFrom_addText hfit
  rw [h', Walk.done.injEq] at h
  obtain ⟨rfl, rfl⟩ := h
  simp only [addTextSlots, fits_cons, Shape.accepts_exactly, Shape.accepts_oneOf] at hfit
  obtain ⟨text, _, rfl, hquoted, _, _, rfl, rfl, place, after, rfl, hcorner, -⟩ := hfit
  -- the margin decides, and the fallback for it can be read
  have hmake : ∀ margin, bs'.text "margin" = .ok margin → ∀ P, FailsFor (readPixels margin) P →
      FailsFor (addTextPattern.make? bs') P := by
    intro margin hmargin P hread
    refine make_of_create rfl ?_
    show FailsFor (createCaption bs') P
    rw [createCaption, htext, hplace, halignment, hmargin]
    exact .ok_bind <| .ok_bind <| .ok_bind <| .ok_bind <| hread.bind_ok fun _ _ => ⟨_, rfl⟩
  -- of the ways to overrun, only the one of a margin has this keyword
  have hover : ∀ n, Overruns ("add_text" :: text :: "at" :: place :: after) n →
      ∃ margin, HasMargin margin after ∧ LongPixels margin n := by
    rintro n (⟨heq, -⟩ | ⟨heq, -⟩ | ⟨heq, -⟩ | ⟨heq, -⟩ | ⟨heq, -⟩ | ⟨heq, -, -, hhere, hlong⟩)
    case margin =>
      cases heq
      exact ⟨_, hhere, hlong⟩
    all_goals exact absurd (List.cons.inj heq).1 (by decide)
  rcases helse with ⟨margin, hhere, hpixels⟩ | hzero
  · -- the margin that is bound is the only one there is
    have hmargin := hbound margin hhere hpixels
    refine (hmake margin hmargin _ (readPixels_failsFor hpixels)).congr fun n => ⟨?_, ?_⟩
    · exact fun hn => .margin rfl hquoted hcorner hhere hn
    · intro hn
      obtain ⟨margin', hhere', hlong⟩ := hover n hn
      have hmargin' := hbound margin' hhere' hlong.accepts
      rw [hmargin, Except.ok.injEq] at hmargin'
      rwa [hmargin']
  · -- without one the fallback is bound, and no long margin can stand there
    have hread : readPixels "0px" = .ok 0 := by decide +kernel
    refine hmake "0px" hzero _ (.never ⟨0, hread⟩ fun n hn => ?_)
    obtain ⟨margin, hhere, hlong⟩ := hover n hn
    have hmargin := hbound margin hhere hlong.accepts
    rw [hzero, Except.ok.injEq] at hmargin
    rw [← hmargin] at hlong
    have herror := (readPixels_failsFor hlong.accepts).error hlong
    rw [hread] at herror
    cases herror

/-! ## All directives -/

/-- A directive with a numeral that is too long is one of five. -/
theorem Overruns.keyword_mem {keyword : String} (h : Overruns (keyword :: texts) n) :
    keyword ∈ ["remove_frames", "trim", "scale", "crop", "add_text"] := by
  rcases h with ⟨heq, -⟩ | ⟨heq, -⟩ | ⟨heq, -⟩ | ⟨heq, -⟩ | ⟨heq, -⟩ | ⟨heq, -⟩
  all_goals
    rw [(List.cons.inj heq).1]
    decide

/-- **What a pattern makes** of the parameters of a directive fails for the numerals in it that
are too long. -/
theorem make_failsFor (hp : p ∈ directivePatterns) (h : p.walkFrom texts = .done bs used) :
    FailsFor (p.make? bs) (Overruns (p.name :: texts)) := by
  -- the names of the other five patterns are not among the keywords that overrun
  have read := @text_of_walkFrom_required p texts bs used hp h
  have other : p.name ∉ ["remove_frames", "trim", "scale", "crop", "add_text"] →
      ∀ n, ¬ Overruns (p.name :: texts) n := fun hname n hn => hname hn.keyword_mem
  simp only [directivePatterns, List.mem_cons, List.not_mem_nil, or_false] at hp
  rcases hp with rfl | rfl | rfl | rfl | rfl | rfl | rfl | rfl | rfl | rfl
  · exact make_removeFrames h
  · -- input
    obtain ⟨file, -, hfile⟩ := @read "file" _ rfl rfl
    refine make_of_create rfl (.never ?_ (other (by decide)))
    show ∃ c, createInput bs = .ok c
    rw [createInput, hfile]
    exact ⟨_, rfl⟩
  · exact make_trim h
  · -- convert
    obtain ⟨format, -, hformat⟩ := @read "format" _ rfl rfl
    refine make_of_create rfl (.never ?_ (other (by decide)))
    simp only [hformat]
    exact ⟨_, rfl⟩
  · -- compress
    obtain ⟨stream, -, hstream⟩ := @read "stream" _ rfl rfl
    refine make_of_create rfl (.never ?_ (other (by decide)))
    simp only [hstream]
    exact ⟨_, rfl⟩
  · exact make_scale h
  · exact make_crop h
  · -- fade
    obtain ⟨direction, -, hdirection⟩ := @read "direction" _ rfl rfl
    obtain ⟨duration, ha, hduration⟩ := @read "duration" _ rfl rfl
    obtain ⟨x, hx, -⟩ := readDecimal_seconds ha
    refine make_of_create rfl (.never ?_ (other (by decide)))
    show ∃ c, createFade bs = .ok c
    rw [createFade, hdirection, hduration]
    simp only [bind, Except.bind, hx]
    exact ⟨_, rfl⟩
  · -- burn
    obtain ⟨kind, -, hkind⟩ := @read "kind" _ rfl rfl
    obtain ⟨content, -, hcontent⟩ := @read "content" _ rfl rfl
    obtain ⟨place, -, hplace⟩ := @read "place" _ rfl rfl
    refine make_of_validate (.never (validateBurn_ok hkind hcontent) (other (by decide))) ?_
    intro _
    show ∃ c, createBurn bs = .ok c
    rw [createBurn, hkind, hcontent, hplace]
    exact ⟨_, rfl⟩
  · exact make_addText h

/-- Such a directive is complete, and its texts fit. -/
theorem walkFrom_of_overruns (hp : p ∈ directivePatterns) (h : Overruns (p.name :: texts) n) :
    ∃ bs used, p.walkFrom texts = .done bs used := by
  -- the keyword tells which pattern it is
  have named : ∀ i, (hi : i < directivePatterns.length) → p.name = directivePatterns[i].name →
      p = directivePatterns[i] := fun i hi => eq_of_name_eq hp (List.getElem_mem hi)
  rcases h with ⟨heq, hlong⟩ | ⟨heq, hline, hline', -⟩ | ⟨heq, hline, hline', -⟩ |
    ⟨heq, haspect, hlong⟩ | ⟨heq, hside, hlong⟩ |
    @⟨text, place, _, after, heq, hquoted, hcorner, -⟩
  all_goals obtain ⟨hname, rfl⟩ := List.cons.inj heq
  case cycle =>
    obtain rfl := named 0 (by decide) hname
    exact ⟨_, _, walkFrom_removeFrames.2 ⟨_, _, rfl, hlong.digits, rfl, rfl⟩⟩
  case start =>
    obtain rfl := named 2 (by decide) hname
    exact ⟨_, _, walkFrom_trim_done.2 ⟨_, _, _, rfl, hline, hline', rfl, rfl⟩⟩
  case stop =>
    obtain rfl := named 2 (by decide) hname
    exact ⟨_, _, walkFrom_trim_done.2 ⟨_, _, _, rfl, hline, hline', rfl, rfl⟩⟩
  case size =>
    obtain rfl := named 5 (by decide) hname
    exact ⟨_, _, walkFrom_scale.2 ⟨_, _, _, rfl, hlong.accepts, haspect, rfl, rfl⟩⟩
  case pixels =>
    obtain rfl := named 6 (by decide) hname
    exact ⟨_, _, walkFrom_crop.2 ⟨_, _, _, rfl, hlong.accepts, hside, rfl, rfl⟩⟩
  case margin =>
    obtain rfl := named 9 (by decide) hname
    have hfit : fits addTextSlots (text :: "at" :: place :: after) = true := by
      simp only [addTextSlots, fits_cons, Shape.accepts_exactly, Shape.accepts_oneOf]
      exact ⟨_, _, rfl, hquoted, _, _, rfl, rfl, _, _, rfl, hcorner, rfl⟩
    obtain ⟨bs, used, hwalk, -⟩ := walkFrom_addText hfit
    exact ⟨bs, used, hwalk⟩

/-- A directive whose parameters nothing can be made of fails with that fault. -/
theorem conclude_of_make {f : Fault} (h : p.make? bs = .error f) (keyword : Token)
    (tokens : List Token) : p.conclude keyword tokens (.done bs used) = .error f := by
  rw [Pattern.make?] at h
  rw [Pattern.conclude]
  rcases hv : p.validate bs with g | _ | detail
  · -- the condition failed
    rw [hv] at h
    exact congrArg _ (Except.error.inj h)
  · -- the condition held, so it was the constructor
    rcases hc : p.create bs with g | c
    · simp only [hv, hc, bind, Except.bind, Except.error.injEq] at h ⊢
      exact h
    · simp [hv, hc, bind, Except.bind, pure, Except.pure] at h
  · rw [hv] at h
    cases h

/-- **A directive fails with a fault** for the numerals in it that are too long, and for nothing
else. -/
theorem match_failsFor (keyword : Token) (rest : List Token) :
    FailsFor (directives.match keyword rest)
      (Overruns (keyword.text :: rest.map Token.text)) := by
  intro f
  constructor
  · intro hf
    have hends := match_ends keyword rest
    rw [hf] at hends
    -- of the six ways to end, one is a fault
    rcases hends with _ | _ | _ | _ | _ | ⟨hfind, -, hwalk, hfault⟩
    obtain ⟨hp, hname⟩ := find?_directives hfind
    rw [← hname]
    exact (make_failsFor hp hwalk f).1 hfault
  · rintro ⟨n, hn, rfl⟩
    -- the keyword is one of five, so its pattern is found
    obtain ⟨p, hp, hname⟩ : ∃ p ∈ directivePatterns, p.name = keyword.text :=
      (by decide : ∀ w ∈ ["remove_frames", "trim", "scale", "crop", "add_text"],
        ∃ p ∈ directivePatterns, p.name = w) _ hn.keyword_mem
    have hfind := find?_name hp
    rw [hname] at hfind
    rw [← hname] at hn
    obtain ⟨bs, used, hwalk⟩ := walkFrom_of_overruns hp hn
    -- a walk that is done had a text for every slot that must be there
    have hcomplete : p.required ≤ rest.length := by
      have hrequired := walk_required hwalk
      have hstop := (walkFrom_stop p (rest.map Token.text)).2
      rw [hwalk, Walk.stop, List.length_map] at hstop
      rw [← required_directives p hp] at hrequired
      omega
    rw [match_eq_walk rest hfind (wellPlaced_directives p hp), if_neg (by omega), hwalk]
    exact conclude_of_make ((make_failsFor hp hwalk).error hn) keyword (keyword :: rest)

end ClipScript
