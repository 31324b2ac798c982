/-
# The patterns of single directives

Where a property depends on which directive it is, its pattern is needed by name, and
what the walk along it comes to. The texts of a directive can then be written down one
by one: the walk is done exactly if they have this form, and it has bound the
parameters among them.

Six patterns of required slots are listed here, and `add_text`, which has two groups
of optional ones as well.
-/
import ClipScript.Proofs.Directives.Slots

set_option autoImplicit false

namespace ClipScript

/-! ## Patterns by name -/

/-- The pattern of a directive that removes frames. -/
def removeFramesPattern : Pattern Command := directivePatterns[0]

/-- The pattern of an input directive. -/
def inputPattern : Pattern Command := directivePatterns[1]

/-- The pattern of a trim directive. -/
def trimPattern : Pattern Command := directivePatterns[2]

/-- The pattern of a scale directive. -/
def scalePattern : Pattern Command := directivePatterns[5]

/-- The pattern of a crop directive. -/
def cropPattern : Pattern Command := directivePatterns[6]

/-- The pattern of a fade directive. -/
def fadePattern : Pattern Command := directivePatterns[7]

/-- The pattern of a directive that adds text. -/
def addTextPattern : Pattern Command := directivePatterns[9]

/-- A pattern of the language is found by its name. -/
theorem find?_name {p : Pattern Command} (hp : p ∈ directivePatterns) :
    directives.find? p.name = some p := by
  -- the language has ten patterns, each under a name of its own
  simp only [directivePatterns, List.mem_cons, List.not_mem_nil, or_false] at hp
  rcases hp with rfl | rfl | rfl | rfl | rfl | rfl | rfl | rfl | rfl | rfl
  all_goals rfl

/-- A pattern is known by its name. -/
theorem eq_of_name_eq {p q : Pattern Command} (hp : p ∈ directivePatterns)
    (hq : q ∈ directivePatterns) (h : p.name = q.name) : p = q := by
  have hfind := find?_name hp
  rw [h, find?_name hq, Option.some.injEq] at hfind
  exact hfind.symm

/-! ## Walks -/

variable {texts : List String} {bs : Bindings} {used : Nat}

@[simp] theorem Shape.accepts_exactly {word text : String} :
    (Shape.exactly word).accepts text = true ↔ text = word :=
  decide_eq_true_iff

@[simp] theorem Shape.accepts_oneOf {words : List String} {text : String} :
    (Shape.oneOf words).accepts text = true ↔ text ∈ words :=
  List.contains_iff_mem

/-- **The walk along `remove_frames`.** -/
theorem walkFrom_removeFrames : removeFramesPattern.walkFrom texts = .done bs used ↔
    ∃ cycle after, texts = "every" :: cycle :: after ∧ Shape.digits.accepts cycle = true ∧
      bs = [("cycle", some cycle)] ∧ used = 3 := by
  have hparts : parts removeFramesPattern.ordered = List.map .required [
      { position := 1, shape := .exactly "every" },
      { position := 2, shape := .digits, name := "cycle" }] :=
    Pattern.parts_of_required (by decide) (by decide)
  rw [Pattern.walkFrom_required hparts]
  simp only [fits_cons, Shape.accepts_exactly]
  constructor
  · rintro ⟨⟨_, _, rfl, rfl, cycle, after, rfl, hcycle, -⟩, rfl, rfl⟩
    exact ⟨cycle, after, rfl, hcycle, rfl, rfl⟩
  · rintro ⟨cycle, after, rfl, hcycle, rfl, rfl⟩
    exact ⟨⟨_, _, rfl, rfl, cycle, after, rfl, hcycle, rfl⟩, rfl, rfl⟩

/-- The walk along an input directive. -/
theorem walkFrom_input (t : String) (ts : List String) :
    inputPattern.walkFrom (t :: ts) =
      if (Shape.mediaFile inputEndings).accepts t then .done [("file", some t)] 2
      else .stuck 1 := by
  have hparts : parts inputPattern.ordered =
      [.required { position := 1, shape := .mediaFile inputEndings, name := "file" }] :=
    Pattern.parts_of_required (by decide) (by decide)
  rw [Pattern.walkFrom, hparts, walk]
  split
  · rw [walk]
    rfl
  · rfl

/-- The parts of a trim directive. -/
theorem parts_trimPattern : parts trimPattern.ordered = List.map .required [
    { position := 1, shape := .exactly "from" },
    { position := 2, shape := .line, name := "start" },
    { position := 3, shape := .exactly "to" },
    { position := 4, shape := .line, name := "end" }] :=
  Pattern.parts_of_required (by decide) (by decide)

/-- **The walk along `trim`,** and where it is stuck. -/
theorem walkFrom_trim (a b c d : String) (ts : List String) :
    trimPattern.walkFrom (a :: b :: c :: d :: ts) =
      if a = "from" then
        if Shape.line.accepts b then
          if c = "to" then
            if Shape.line.accepts d then .done [("start", some b), ("end", some d)] 5
            else .stuck 4
          else .stuck 3
        else .stuck 2
      else .stuck 1 := by
  simp only [Pattern.walkFrom, parts_trimPattern, List.map_cons, List.map_nil, walk,
    Shape.accepts_exactly]
  rfl

/-- The texts of a trim directive whose walk is done. -/
theorem walkFrom_trim_done : trimPattern.walkFrom texts = .done bs used ↔
    ∃ start stop after, texts = "from" :: start :: "to" :: stop :: after ∧
      Shape.line.accepts start = true ∧ Shape.line.accepts stop = true ∧
      bs = [("start", some start), ("end", some stop)] ∧ used = 5 := by
  rw [Pattern.walkFrom_required parts_trimPattern]
  simp only [fits_cons, Shape.accepts_exactly]
  constructor
  · rintro ⟨⟨_, _, rfl, rfl, start, _, rfl, hstart, _, _, rfl, rfl, stop, after, rfl, hstop, -⟩,
      rfl, rfl⟩
    exact ⟨start, stop, after, rfl, hstart, hstop, rfl, rfl⟩
  · rintro ⟨start, stop, after, rfl, hstart, hstop, rfl, rfl⟩
    exact ⟨⟨_, _, rfl, rfl, start, _, rfl, hstart, _, _, rfl, rfl, stop, after, rfl, hstop, rfl⟩,
      rfl, rfl⟩

/-- A trim directive has four texts after its keyword. -/
theorem exists_of_trimPattern_required {α : Type} {l : List α}
    (h : trimPattern.required ≤ l.length) : ∃ a b c d ts, l = a :: b :: c :: d :: ts := by
  have hrequired : trimPattern.required = 4 := by decide
  rcases l with _ | ⟨a, _ | ⟨b, _ | ⟨c, _ | ⟨d, ts⟩⟩⟩⟩
  case cons.cons.cons.cons => exact ⟨a, b, c, d, ts, rfl⟩
  all_goals
    simp only [hrequired, List.length_cons, List.length_nil] at h
    omega

/-- **The walk along `scale`.** -/
theorem walkFrom_scale : scalePattern.walkFrom texts = .done bs used ↔
    ∃ size aspect after, texts = "to" :: size :: aspect :: "aspect" :: "ratio" :: after ∧
      Shape.dimensions.accepts size = true ∧ aspect ∈ wordsOf Aspect ∧
      bs = [("size", some size), ("aspect", some aspect)] ∧ used = 6 := by
  have hparts : parts scalePattern.ordered = List.map .required [
      { position := 1, shape := .exactly "to" },
      { position := 2, shape := .dimensions, name := "size" },
      { position := 3, shape := .oneOf (wordsOf Aspect), name := "aspect" },
      { position := 4, shape := .exactly "aspect" },
      { position := 5, shape := .exactly "ratio" }] :=
    Pattern.parts_of_required (by decide) (by decide)
  rw [Pattern.walkFrom_required hparts]
  simp only [fits_cons, Shape.accepts_exactly, Shape.accepts_oneOf]
  constructor
  · rintro ⟨⟨_, _, rfl, rfl, size, _, rfl, hsize, aspect, _, rfl, haspect, _, _, rfl, rfl, _, after,
      rfl, rfl, -⟩, rfl, rfl⟩
    exact ⟨size, aspect, after, rfl, hsize, haspect, rfl, rfl⟩
  · rintro ⟨size, aspect, after, rfl, hsize, haspect, rfl, rfl⟩
    exact ⟨⟨_, _, rfl, rfl, size, _, rfl, hsize, aspect, _, rfl, haspect, _, _, rfl, rfl, _, after,
      rfl, rfl, rfl⟩, rfl, rfl⟩

/-- **The walk along `crop`.** -/
theorem walkFrom_crop : cropPattern.walkFrom texts = .done bs used ↔
    ∃ pixels side after, texts = pixels :: "from" :: side :: after ∧
      Shape.pixels.accepts pixels = true ∧ side ∈ wordsOf Side ∧
      bs = [("pixels", some pixels), ("side", some side)] ∧ used = 4 := by
  have hparts : parts cropPattern.ordered = List.map .required [
      { position := 1, shape := .pixels, name := "pixels" },
      { position := 2, shape := .exactly "from" },
      { position := 3, shape := .oneOf (wordsOf Side), name := "side" }] :=
    Pattern.parts_of_required (by decide) (by decide)
  rw [Pattern.walkFrom_required hparts]
  simp only [fits_cons, Shape.accepts_exactly, Shape.accepts_oneOf]
  constructor
  · rintro ⟨⟨pixels, _, rfl, hpixels, _, _, rfl, rfl, side, after, rfl, hside, -⟩, rfl, rfl⟩
    exact ⟨pixels, side, after, rfl, hpixels, hside, rfl, rfl⟩
  · rintro ⟨pixels, side, after, rfl, hpixels, hside, rfl, rfl⟩
    exact ⟨⟨pixels, _, rfl, hpixels, _, _, rfl, rfl, side, after, rfl, hside, rfl⟩, rfl, rfl⟩

/-- **The walk along `fade`.** -/
theorem walkFrom_fade : fadePattern.walkFrom texts = .done bs used ↔
    ∃ direction duration after, texts = direction :: "for" :: duration :: after ∧
      direction ∈ wordsOf FadeDirection ∧ Shape.seconds.accepts duration = true ∧
      bs = [("direction", some direction), ("duration", some duration)] ∧ used = 4 := by
  have hparts : parts fadePattern.ordered = List.map .required [
      { position := 1, shape := .oneOf (wordsOf FadeDirection), name := "direction" },
      { position := 2, shape := .exactly "for" },
      { position := 3, shape := .seconds, name := "duration" }] :=
    Pattern.parts_of_required (by decide) (by decide)
  rw [Pattern.walkFrom_required hparts]
  simp only [fits_cons, Shape.accepts_exactly, Shape.accepts_oneOf]
  constructor
  · rintro ⟨⟨direction, _, rfl, hdirection, _, _, rfl, rfl, duration, after, rfl, hduration, -⟩,
      rfl, rfl⟩
    exact ⟨direction, duration, after, rfl, hdirection, hduration, rfl, rfl⟩
  · rintro ⟨direction, duration, after, rfl, hdirection, hduration, rfl, rfl⟩
    exact ⟨⟨direction, _, rfl, hdirection, _, _, rfl, rfl, duration, after, rfl, hduration, rfl⟩,
      rfl, rfl⟩

/-! ## The walk along `add_text` -/

/-- The slots of `add_text` that must be there. -/
def addTextSlots : List Slot := [
  { position := 1, shape := .quotedLine, name := "text" },
  { position := 2, shape := .exactly "at" },
  { position := 3, shape := .oneOf cornerWords, name := "place" }]

/-- The slots of its alignment. -/
def alignmentSlots : List Slot := [
  { position := 4, shape := .exactly "aligned", optional := true, group := "alignment" },
  { position := 5, shape := .oneOf (wordsOf Alignment), name := "alignment",
    optional := true, fallback := "left", group := "alignment" }]

/-- The slots of its margin. -/
def marginSlots : List Slot := [
  { position := 6, shape := .exactly "with", optional := true, group := "margin" },
  { position := 7, shape := .exactly "margin", optional := true, group := "margin" },
  { position := 8, shape := .pixels, name := "margin",
    optional := true, fallback := "0px", group := "margin" }]

/-- The parts of `add_text`. -/
theorem parts_addTextPattern : ∃ a as m ms, alignmentSlots = a :: as ∧ marginSlots = m :: ms ∧
    parts addTextPattern.ordered =
      addTextSlots.map .required ++ [.optional a as, .optional m ms] := by
  refine ⟨_, _, _, _, rfl, rfl, ?_⟩
  have hslots : addTextPattern.slots = addTextSlots ++ (alignmentSlots ++ marginSlots) := rfl
  rw [Pattern.ordered_eq (by decide), hslots, parts_append_of_required (by decide)]
  simp [parts, alignmentSlots, marginSlots, Slot.joins]

theorem fits_alignmentSlots {ts : List String} : fits alignmentSlots ts = true ↔
    ∃ a after, ts = "aligned" :: a :: after ∧ a ∈ wordsOf Alignment := by
  simp only [alignmentSlots, fits_cons, Shape.accepts_exactly, Shape.accepts_oneOf]
  constructor
  · rintro ⟨_, _, rfl, rfl, a, after, rfl, ha, -⟩
    exact ⟨a, after, rfl, ha⟩
  · rintro ⟨a, after, rfl, ha⟩
    exact ⟨_, _, rfl, rfl, a, after, rfl, ha, rfl⟩

theorem fits_marginSlots {ts : List String} : fits marginSlots ts = true ↔
    ∃ m after, ts = "with" :: "margin" :: m :: after ∧ Shape.pixels.accepts m = true := by
  simp only [marginSlots, fits_cons, Shape.accepts_exactly]
  constructor
  · rintro ⟨_, _, rfl, rfl, _, _, rfl, rfl, m, after, rfl, hm, -⟩
    exact ⟨m, after, rfl, hm⟩
  · rintro ⟨m, after, rfl, hm⟩
    exact ⟨_, _, rfl, rfl, _, _, rfl, rfl, m, after, rfl, hm, rfl⟩

/-- **A margin** among the texts behind the place: an alignment can stand before it. -/
inductive HasMargin (margin : String) (ts : List String) : Prop where
  | first {after : List String} (eq : ts = "with" :: "margin" :: margin :: after)
  | second {alignment : String} {after : List String} (mem : alignment ∈ wordsOf Alignment)
      (eq : ts = "aligned" :: alignment :: "with" :: "margin" :: margin :: after)

/-- The margin that is bound, wherever the walk is when it comes to it. -/
theorem walk_marginSlots {s : Slot} {ss : List Slot} (hslots : marginSlots = s :: ss)
    (ts : List String) (bs : Bindings) (c : Nat) :
    ∃ bs' u, walk [.optional s ss] ts bs c = .done bs' u ∧
      (∀ m after, ts = "with" :: "margin" :: m :: after → Shape.pixels.accepts m = true →
        bs'.text "margin" = .ok m) ∧
      ((∃ m after, ts = "with" :: "margin" :: m :: after ∧ Shape.pixels.accepts m = true) ∨
        bs'.text "margin" = .ok "0px") := by
  rw [walk, ← hslots]
  -- what follows has a margin, or else the fallback is bound
  by_cases hfit : fits marginSlots ts = true
  · obtain ⟨m, after, rfl, hm⟩ := fits_marginSlots.1 hfit
    rw [if_pos hfit, walk]
    refine ⟨_, _, rfl, ?_, .inl ⟨m, after, rfl, hm⟩⟩
    intro m' after' heq _
    cases heq
    exact Bindings.text_bind_self bs "margin" m
  · rw [if_neg hfit, walk]
    refine ⟨_, _, rfl, ?_, .inr (Bindings.text_bind_self _ "margin" "0px")⟩
    intro m after heq hm
    exact absurd (fits_marginSlots.2 ⟨m, after, heq, hm⟩) hfit

/-- **The walk along `add_text`** is done once the slots that must be there are, and binds the
margin if there is one. -/
theorem walkFrom_addText (h : fits addTextSlots texts = true) :
    ∃ bs used, addTextPattern.walkFrom texts = .done bs used ∧
      (∀ m, HasMargin m (texts.drop 3) → Shape.pixels.accepts m = true →
        bs.text "margin" = .ok m) ∧
      ((∃ m, HasMargin m (texts.drop 3) ∧ Shape.pixels.accepts m = true) ∨
        bs.text "margin" = .ok "0px") := by
  obtain ⟨a, as, m, ms, halignment, hmargin, hparts⟩ := parts_addTextPattern
  have hlen : as.length + 1 = 2 := by
    rw [← List.length_cons, ← halignment]
    rfl
  rw [Pattern.walkFrom, hparts, walk_map_required addTextSlots h, walk, ← halignment, hlen]
  generalize hafter : texts.drop addTextSlots.length = after
  rw [show texts.drop 3 = after from hafter]
  -- an alignment stands before the margin, if there is one
  by_cases hfit : fits alignmentSlots after = true
  · obtain ⟨a, after, rfl, ha⟩ := fits_alignmentSlots.1 hfit
    obtain ⟨bs, u, hwalk, hbound, helse⟩ := walk_marginSlots hmargin after
      (bindTexts alignmentSlots ("aligned" :: a :: after) (bindTexts addTextSlots texts []))
      (1 + addTextSlots.length + 2)
    rw [if_pos hfit]
    refine ⟨bs, u, hwalk, ?_, helse.imp_left ?_⟩
    · intro m hm hpixels
      rcases hm with heq | ⟨-, heq⟩
      · exact absurd (List.cons.inj heq).1 (by decide)
      · exact hbound m _ (List.cons.inj (List.cons.inj heq).2).2 hpixels
    · rintro ⟨m, after, rfl, hpixels⟩
      exact ⟨m, .second ha rfl, hpixels⟩
  · -- no alignment: the walk comes to the margin where it is
    obtain ⟨bs, u, hwalk, hbound, helse⟩ := walk_marginSlots hmargin after
      (bindFallbacks alignmentSlots (bindTexts addTextSlots texts [])) (1 + addTextSlots.length)
    rw [if_neg hfit]
    refine ⟨bs, u, hwalk, ?_, helse.imp_left ?_⟩
    · intro m hm hpixels
      rcases hm with heq | ⟨ha, heq⟩
      · exact hbound m _ heq hpixels
      · exact absurd (fits_alignmentSlots.2 ⟨_, _, heq, ha⟩) hfit
    · rintro ⟨m, after, heq, hpixels⟩
      exact ⟨m, .first heq, hpixels⟩

end ClipScript
