/-
# The commands of a script

What the directives accept bounds what a script can ask for. A command that comes from
a script is *plain*: its times are valid, its duration is a length or infinite, its
words are known to the vocabularies, and it is no command that only building or a
caller makes (`plain_of_parse`). The infinite duration is the one thing that a directive
lets through and that cannot be built: a numeral of more than three hundred digits is
larger than any double.

What a directive becomes is said once, one case per directive (`Command.FromDirective`,
`makesOnly_fromDirective`). A property that these commands and comments have is one of all
commands of a script (`forall_command_of_fromDirective`), and no later proof goes through the
patterns again.
-/
import ClipScript.Compilation
import ClipScript.Proofs.Directives.Comments
import ClipScript.Proofs.Script.Cuts

set_option autoImplicit false

namespace ClipScript

open Number

variable {style : CommentStyle} {source : String} {s : Script Command}

/-! ## All commands of a script -/

/-- Accepted directives only become commands with some property. -/
def MakesOnly (P : Command → Prop) : Prop :=
  ∀ p ∈ directivePatterns, ∀ texts bs used, p.walkFrom texts = .done bs used →
    p.validate bs = .ok .accepted → Gives P (p.create bs)

/-- **What comments satisfy, and accepted directives,** every command of consecutive cuts
satisfies. -/
theorem Cuts.forall_command {P : Command → Prop} (hcomment : ∀ content, P (.comment content))
    (hmakes : MakesOnly P) {tokens : List Token} {i j : Nat} {segments : List (Segment Command)}
    (h : Cuts tokens i segments j) {c : Command} {source : String}
    (hc : (c, source) ∈ segments.filterMap Segment.understood?) : P c := by
  obtain ⟨g, hg, hx⟩ := List.mem_filterMap.1 hc
  induction h with
  | nil => cases hg
  | cons cut _ ih =>
    rcases List.mem_cons.1 hg with rfl | hg
    · -- a command is a comment, or what a directive is made into
      rcases cut with _ | @⟨t, node, consumed, _, _, _, hmade, _, _⟩ | _
      · obtain ⟨rfl, -⟩ := Prod.mk.inj (Option.some.inj hx)
        exact hcomment _
      · obtain ⟨rfl, -⟩ := Prod.mk.inj (Option.some.inj hx)
        obtain ⟨p, bs, hmade⟩ := match_made.1 hmade
        exact hmakes p hmade.mem _ bs _ hmade.walked hmade.accepted _ hmade.created
      · cases hx
    · exact ih (List.mem_filterMap.2 ⟨g, hg, hx⟩) hg

theorem forall_command_of_parse {P : Command → Prop} (hcomment : ∀ content, P (.comment content))
    (hmakes : MakesOnly P) (h : parse style source = .ok s) : ∀ c ∈ s.commands, P c := by
  intro c hc
  obtain ⟨x, hx, rfl⟩ := List.mem_map.1 hc
  exact (cuts_of_parse h).forall_command hcomment hmakes hx

/-! ## Taking out later inputs -/

/-- What is left of a script when later inputs are taken out was there before. -/
theorem keepFirstInput_subset (seen : Bool) (cs : List (Command × String)) :
    ∀ c ∈ (keepFirstInput seen cs).1, c ∈ cs := by
  induction cs generalizing seen with
  | nil => intro c hc; exact hc
  | cons d cs ih =>
    intro c hc
    rw [keepFirstInput] at hc
    split at hc
    · exact List.mem_cons_of_mem _ (ih seen c hc)
    · rcases List.mem_cons.1 hc with rfl | hc
      · exact List.mem_cons_self
      · exact List.mem_cons_of_mem _ (ih _ c hc)

/-- The commands that count are among the commands of the script. -/
theorem commands_ofScript_subset (s : Script Command) :
    ∀ c ∈ (Draft.ofScript s).commands, c ∈ s.commands := by
  intro c hc
  obtain ⟨x, hx, rfl⟩ := List.mem_map.1 hc
  exact List.mem_map_of_mem (keepFirstInput_subset false s.understood x hx)

/-- **Commands of every other kind** are left as they are when later inputs are taken out. -/
theorem filterMap_keepFirstInput {β : Type} {f : Command → Option β}
    (hinput : ∀ c : Command, c.isInput = true → f c = none) (seen : Bool)
    (cs : List (Command × String)) :
    ((keepFirstInput seen cs).1.map Prod.fst).filterMap f = (cs.map Prod.fst).filterMap f := by
  induction cs generalizing seen with
  | nil => rfl
  | cons c cs ih =>
    rw [keepFirstInput]
    split
    · next hout =>
      have hnone := hinput c.1 (Bool.and_eq_true_iff.1 hout).1
      rw [ih, List.map_cons, List.filterMap_cons_none hnone]
    · simp only [List.map_cons, List.filterMap_cons, ih]

/-- Taking out later inputs leaves the crops. -/
theorem crops_ofScript (s : Script Command) :
    crops (Draft.ofScript s).commands = crops s.commands := by
  refine filterMap_keepFirstInput (fun c hc => ?_) false s.understood
  cases c
  case input => rfl
  all_goals cases hc

/-! ## Known words -/

theorem Word.ofText_of_mem {α : Type} [Vocabulary α] {w : String} (h : w ∈ wordsOf α) :
    ∃ a : α, (Word.ofText w : Word α) = .known a := by
  obtain ⟨a, ha, hspelling⟩ := List.mem_map.1 h
  -- a member with this spelling is there, so one is found
  have hsome : (Vocabulary.members.find? fun a : α => Vocabulary.spelling a = w).isSome := by
    rw [List.find?_isSome]
    exact ⟨a, ha, by simpa using hspelling⟩
  obtain ⟨b, hb⟩ := Option.isSome_iff_exists.1 hsome
  exact ⟨b, by rw [Word.ofText, hb]⟩

theorem Word.ofText_of_oneOf {α : Type} [Vocabulary α] {w : String}
    (h : (Shape.oneOf (wordsOf α)).accepts w = true) :
    ∃ a : α, (Word.ofText w : Word α) = .known a :=
  Word.ofText_of_mem (List.contains_iff_mem.1 h)

/-! ## Commands of directives -/

/-- A numeral before `px` is not negative. -/
theorem readPixels_nonneg {t : String} (h : Shape.pixels.accepts t = true) :
    Gives (0 ≤ ·) (readPixels t) := by
  obtain ⟨ds, hds, heq⟩ := Shape.accepts_pixels h
  rw [readPixels, @withoutEnd_append "px" t ds heq, readInt_of_isDigits hds]
  split
  · rintro _ ⟨⟩
  · rintro _ ⟨⟩
    exact Int.natCast_nonneg _

/-- A trim that is accepted has two valid times, of which the second is later. -/
theorem seconds_of_validateTrim {bs : Bindings} {start stop : String}
    (hstart : bs.text "start" = .ok start) (hstop : bs.text "end" = .ok stop)
    (h : validateTrim bs = .ok .accepted) :
    ∃ x y, secondsOf start = .ok x ∧ secondsOf stop = .ok y ∧ y.le x = false := by
  obtain ⟨hvalid, hvalid'⟩ := isValidTime_of_validateTrim hstart hstop h
  rw [validateTrim, hstart, hstop] at h
  simp only [bind, Except.bind, hvalid, hvalid'] at h
  rcases hy : secondsOf stop with f | y
  · simp [hy] at h
  · rcases hx : secondsOf start with f | x
    · simp [hx, hy] at h
    · refine ⟨x, y, rfl, rfl, ?_⟩
      by_contra hle
      rw [Bool.not_eq_false] at hle
      simp [hx, hy, hle, pure, Except.pure] at h

/-- A scale that is accepted has a positive size. -/
theorem positive_of_validateSize {bs : Bindings} {size : String} {width height : Int}
    (hsize : bs.text "size" = .ok size) (hread : readSize size = .ok (width, height))
    (h : validateSize bs = .ok .accepted) : 0 < width ∧ 0 < height := by
  simp only [validateSize, hsize, hread, bind, Except.bind] at h
  by_cases hpositive : width ≤ 0 ∨ height ≤ 0
  · simp [hpositive, pure, Except.pure] at h
  · omega

/-- **What a directive becomes,** with what is known of its parameters: words of the vocabularies,
valid times of one line, sizes and durations in their ranges. -/
inductive Command.FromDirective : Command → Prop where
  | deduplicate (cycle : Int) : FromDirective (.deduplicate cycle)
  | input (selector : String) (name : Option String) : FromDirective (.input selector name)
  | trim {start stop : String} {x y : Double}
      (lines : '\n' ∉ start.toList ∧ '\n' ∉ stop.toList)
      (valid : isValidTime start = .ok true ∧ isValidTime stop = .ok true)
      (begins : secondsOf start = .ok x) (ends : secondsOf stop = .ok y)
      (later : y.le x = false) : FromDirective (.trim start stop)
  | convert {format : String} (listed : format ∈ outputFormats) : FromDirective (.convert format)
  | compress (stream : Stream) : FromDirective (.compress (.known stream))
  | scale {width height : Int} (aspect : Aspect) (positive : 0 < width ∧ 0 < height) :
    FromDirective (.scale width height (.known aspect))
  | crop {size : Int} (side : Side) (nonneg : 0 ≤ size) : FromDirective (.crop size (.known side))
  | fade (direction : FadeDirection) {duration : Double}
      (length : duration.isLength = true ∨ duration = .infinity false) :
    FromDirective (.fade (.known direction) duration)
  | burn (kind : BurnKind) (content : String) (place : Placement) :
    FromDirective (.burn (.known kind) content (.known place))
  | caption (text : String) (place : Placement) (alignment : Alignment) (margin : Int) :
    FromDirective (.caption text (.known place) (.known alignment) margin)

/-- **A directive becomes one of these commands.** -/
theorem makesOnly_fromDirective : MakesOnly Command.FromDirective := by
  intro p hp texts bs used hwalked haccepted
  -- a parameter is a text that its slot takes
  have read : ∀ {name : String} {sl : Slot} {v : String},
      p.slots.find? (fun s => s.parameter? == some name) = some sl → sl.fallback = none →
        bs.text name = .ok v → sl.shape.accepts v = true := by
    intro name sl v hsl hfallback hv
    obtain ⟨v', ha, hv'⟩ := text_of_walkFrom_required hp hwalked hsl hfallback
    obtain rfl : v = v' := Except.ok.inj (hv.symm.trans hv')
    exact ha
  have readOptional := @text_of_walkFrom p texts bs used hp hwalked
  clear hwalked
  simp only [directivePatterns, List.mem_cons, List.not_mem_nil, or_false] at hp
  rcases hp with rfl | rfl | rfl | rfl | rfl | rfl | rfl | rfl | rfl | rfl
  · -- remove_frames
    exact .bind fun _ _ => .bind fun cycle _ => .ok (.deduplicate cycle)
  · -- input
    exact .bind fun selector _ => .ok (.input selector _)
  · -- trim
    refine .bind fun start hstart => .bind fun stop hstop => .ok ?_
    obtain ⟨x, y, hx, hy, hlater⟩ := seconds_of_validateTrim hstart hstop haccepted
    exact .trim ⟨(Shape.accepts_line.1 (read rfl rfl hstart)).2,
      (Shape.accepts_line.1 (read rfl rfl hstop)).2⟩
      (isValidTime_of_validateTrim hstart hstop haccepted) hx hy hlater
  · -- convert
    refine .bind fun format hformat => .ok (.convert ?_)
    have hlisted : (Shape.oneOf outputFormats).accepts format = true := read rfl rfl hformat
    exact List.contains_iff_mem.1 hlisted
  · -- compress
    refine .bind fun stream hstream => .ok ?_
    obtain ⟨a, ha⟩ := Word.ofText_of_oneOf (read rfl rfl hstream)
    exact ha ▸ .compress a
  · -- scale
    refine .bind fun size hsize => .bind fun numbers hread => .bind fun aspect haspect => .ok ?_
    obtain ⟨a, ha⟩ := Word.ofText_of_oneOf (read rfl rfl haspect)
    exact ha ▸ .scale a (positive_of_validateSize hsize hread haccepted)
  · -- crop
    refine .bind fun pixels hpixels => .bind fun size hsize => .bind fun side hside => .ok ?_
    obtain ⟨a, ha⟩ := Word.ofText_of_oneOf (read rfl rfl hside)
    exact ha ▸ .crop a (readPixels_nonneg (read rfl rfl hpixels) size hsize)
  · -- fade
    refine .bind fun direction hdirection => .bind fun duration hduration => .bind fun x hx =>
      .ok ?_
    obtain ⟨a, ha⟩ := Word.ofText_of_oneOf (read rfl rfl hdirection)
    obtain ⟨y, hy, hlength⟩ := readDecimal_seconds (read rfl rfl hduration)
    obtain rfl : x = y := Except.ok.inj (hx.symm.trans hy)
    exact ha ▸ .fade a hlength
  · -- burn
    refine .bind fun kind hkind => .bind fun content _ => .bind fun place hplace => .ok ?_
    obtain ⟨a, ha⟩ := Word.ofText_of_oneOf (read rfl rfl hkind)
    obtain ⟨b, hb⟩ := Word.ofText_of_oneOf (read rfl rfl hplace)
    exact ha ▸ hb ▸ .burn a content b
  · -- add_text
    refine .bind fun text _ => .bind fun place hplace => .bind fun alignment halignment =>
      .bind fun _ _ => .bind fun margin _ => .ok ?_
    -- the corners and the center are some of the places
    have hcorners : ∀ w ∈ cornerWords, w ∈ wordsOf Placement := by decide
    have hcorner : (Shape.oneOf cornerWords).accepts place = true := read rfl rfl hplace
    obtain ⟨a, ha⟩ := Word.ofText_of_mem (hcorners place (List.contains_iff_mem.1 hcorner))
    obtain ⟨b, hb⟩ : ∃ b : Alignment, (Word.ofText alignment : Word Alignment) = .known b := by
      obtain ⟨v, hv, hread⟩ := @readOptional "alignment" _ rfl
      obtain rfl : alignment = v := Except.ok.inj (halignment.symm.trans hv)
      -- it is a word that its slot takes, or the fallback
      rcases hread with ⟨-, haccepts⟩ | hfallback
      · exact Word.ofText_of_oneOf haccepts
      · obtain rfl := Option.some.inj hfallback
        exact ⟨.left, rfl⟩
    exact ha ▸ hb ▸ .caption text a b margin

/-- **What comments satisfy, and what directives become,** every command of a script satisfies. -/
theorem forall_command_of_fromDirective {P : Command → Prop}
    (hcomment : ∀ content, P (.comment content)) (hdirective : ∀ c, c.FromDirective → P c)
    (h : parse style source = .ok s) : ∀ c ∈ s.commands, P c :=
  forall_command_of_parse hcomment
    (fun p hp texts bs used hwalked haccepted c hc =>
      hdirective c (makesOnly_fromDirective p hp texts bs used hwalked haccepted c hc)) h

/-! ## Plain commands -/

/-- **A plain command:** one that a directive can become. -/
def Command.Plain : Command → Prop
  | .trim start stop => ∀ t ∈ [start, stop], '\n' ∉ t.toList ∧ isValidTime t = .ok true
  | .fade _ duration => duration.isLength = true ∨ duration = .infinity false
  | .crop size side => 0 ≤ size ∧ ∃ a, side = .known a
  | .burn _ _ place | .caption _ place _ _ => ∃ a, place = .known a
  | .mergedCrop .. | .foreign _ => False
  | _ => True

/-- The times of commands are those of their trims. -/
theorem mem_of_mem_trims {commands : List Command} {start stop : String}
    (h : (start, stop) ∈ commands.filterMap Command.trim?) : .trim start stop ∈ commands := by
  obtain ⟨c, hc, htrim⟩ := List.mem_filterMap.1 h
  cases c
  case trim =>
    obtain ⟨rfl, rfl⟩ := Prod.mk.inj (Option.some.inj htrim)
    exact hc
  all_goals cases htrim

/-- **A directive becomes a plain command.** -/
theorem Command.FromDirective.plain {c : Command} (h : c.FromDirective) : c.Plain := by
  cases h with
  | trim lines valid begins ends later =>
    simp only [Command.Plain, List.mem_cons, List.not_mem_nil, or_false, forall_eq_or_imp,
      forall_eq]
    exact ⟨⟨lines.1, valid.1⟩, lines.2, valid.2⟩
  | crop side nonneg => exact ⟨nonneg, side, rfl⟩
  | fade direction length => exact length
  | burn kind content place => exact ⟨place, rfl⟩
  | caption text place alignment margin => exact ⟨place, rfl⟩
  | _ => trivial

/-- **The commands of a script that is parsed** are plain. -/
theorem plain_of_parse (h : parse style source = .ok s) : ∀ c ∈ s.commands, c.Plain :=
  forall_command_of_fromDirective (fun _ => trivial) (fun _ hc => hc.plain) h

theorem plain_ofScript (h : parse style source = .ok s) :
    ∀ c ∈ (Draft.ofScript s).commands, c.Plain :=
  fun c hc => plain_of_parse h c (commands_ofScript_subset s c hc)

end ClipScript
