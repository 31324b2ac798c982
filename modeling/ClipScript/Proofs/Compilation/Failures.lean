/-
# How compiling fails

Building stops at the first command that cannot be built (`run_outcome_error`). What a
plain command can fail for is little (`fails_of_fault?`): a number that is too long to be
written, a crop that leaves nothing of the frame, or a fade in which a duration is not a
finite number. A fade of a finite duration is always built when the output has a finite
length or none, since what is computed for it stays in the range of doubles.

A script that is parsed therefore fails for the file names, for its crops when they
are merged, or at the first command that cannot be built, in this order
(`compile_draft_error_iff`).
-/
import ClipScript.Proofs.Compilation.CommandLine
import ClipScript.Proofs.Failing

set_option autoImplicit false

namespace ClipScript

open Number

/-! ## Numerals -/

/-- A numeral is only refused for its length. -/
theorem writeInt_failsOnly (n : Int) : FailsOnly (· = .numeralTooLong) (writeInt n) := by
  rw [writeInt]
  split
  · exact .error rfl
  · exact .ok

/-- **A finite duration can be written.** -/
theorem formatNumber_ok {x : Double} (h : x.isFinite = true) : ∃ t, formatNumber x = .ok t := by
  rcases x with _ | _ | _ | _
  · cases h
  · cases h
  · exact ⟨_, rfl⟩
  · exact ⟨_, rfl⟩

/-- The faults of a duration that is not finite. -/
def Fault.isEndless : Fault → Bool
  | .infiniteInteger | .undefinedInteger => true
  | _ => false

theorem formatNumber_failsOnly (x : Double) :
    FailsOnly (fun f => f.isEndless = true) (formatNumber x) := by
  rcases x with _ | _ | _ | _
  · exact .error rfl
  · exact .error rfl
  · exact .ok
  · exact .ok

namespace Filter

variable {ctx : Context} {c : Command}

/-! ## Single filters -/

theorem scaleText_failsOnly (width height : Int) (aspect : Word Aspect) :
    FailsOnly (· = .numeralTooLong) (scaleText width height aspect) :=
  .bind (writeInt_failsOnly width) fun _ _ => .bind (writeInt_failsOnly height) fun _ _ => .ok

theorem remaining_failsOnly (dimension : String) (taken : Int) :
    FailsOnly (· = .numeralTooLong) (remaining dimension taken) := by
  rw [remaining]
  split
  · exact .ok
  · exact .bind (writeInt_failsOnly taken) fun _ _ => .ok

/-- A crop filter fails at its bounds, or at a number that is too long. -/
theorem filter_failsOnly (m : Margins) (d : Option Descriptor) :
    FailsOnly (fun f => f = .numeralTooLong ∨ m.checkBounds d = .error f) (m.filter d) := by
  have hwrite : ∀ n, FailsOnly (fun f => f = .numeralTooLong ∨ m.checkBounds d = .error f)
      (writeInt n) := fun n => (writeInt_failsOnly n).mono fun f => .inl
  have hremaining : ∀ dimension n, FailsOnly (fun f => f = .numeralTooLong ∨
      m.checkBounds d = .error f) (remaining dimension n) := fun dimension n =>
    (remaining_failsOnly dimension n).mono fun f => .inl
  have hsized : ∀ w h : String, FailsOnly (fun f => f = .numeralTooLong ∨
      m.checkBounds d = .error f) (do
        return "crop=" ++ w ++ ":" ++ h ++ ":" ++ (← writeInt m.left) ++ ":" ++
          (← writeInt m.top)) := fun w h =>
    .bind (hwrite _) fun _ _ => .bind (hwrite _) fun _ _ => .ok
  refine .bind (fun f hf => .inr hf) fun _ _ => ?_
  split
  · exact .bind (hwrite _) fun w _ => .bind (hwrite _) fun h _ => hsized w h
  · exact .bind (hremaining _ _) fun w _ => .bind (hremaining _ _) fun h _ => hsized w h

theorem filter_of_checkBounds {m : Margins} {d : Option Descriptor} {f : Fault}
    (h : m.checkBounds d = .error f) : m.filter d = .error f := by
  rw [Margins.filter, h]
  rfl

/-- A text at a known place fails only at its padding. -/
theorem drawText_failsOnly (text : String) (place : Placement) (alignment : Word Alignment)
    (margin : Int) :
    FailsOnly (· = .numeralTooLong) (drawText text (.known place) alignment margin) :=
  .bind (.bind (writeInt_failsOnly _) fun _ _ => .ok) fun _ _ => .ok

/-! ## Fades -/

/-- **A fade of a finite duration is built,** if the length of the output is finite. -/
theorem fadeStep_ok {direction : Word FadeDirection} {duration : Double} {output : Option Double}
    (hduration : duration.isLength = true) (houtput : ∀ x, output = some x → x.inRange = true)
    (n : Nat) : ∃ a, (fadeStep direction duration output n).outcome = .ok a := by
  have finite : ∀ {x : Double}, x.isLength = true → ∃ t, formatNumber x = .ok t := fun h =>
    formatNumber_ok (Double.isFinite_of_inRange (Double.inRange_of_isLength h))
  obtain ⟨text, htext⟩ := finite hduration
  have hwarning : ∃ ws, overrun text duration output = .ok ws := by
    rcases output with _ | length
    · exact ⟨[], rfl⟩
    · rw [overrun]
      split
      · obtain ⟨t, ht⟩ := formatNumber_ok (Double.isFinite_of_inRange (houtput length rfl))
        exact ⟨_, by rw [ht]; rfl⟩
      · exact ⟨[], rfl⟩
  -- the start of a fade out is what is left of the output, to the millisecond
  have hstart : ∃ t, fadeOutStart duration output = .ok t := by
    rcases output with _ | length
    · exact ⟨"0", rfl⟩
    · exact finite (Double.isLength_roundPlaces 3
        (Double.isLength_remaining (houtput length rfl) hduration))
  obtain ⟨ws, hws⟩ := hwarning
  obtain ⟨start, hstart⟩ := hstart
  rw [fadeStep]
  simp only [htext, hws, hstart]
  split
  · exact ⟨_, rfl⟩
  · exact ⟨_, rfl⟩

theorem fadeStep_infinity (direction : Word FadeDirection) (output : Option Double) (n : Nat) :
    (fadeStep direction (.infinity false) output n).outcome = .error .infiniteInteger := rfl

/-- Building a fade writes durations, and fails for nothing else. -/
theorem fadeStep_failsOnly (direction : Word FadeDirection) (duration : Double)
    (output : Option Double) (n : Nat) :
    FailsOnly (fun f => f.isEndless = true) (fadeStep direction duration output n).outcome := by
  have hwarning : ∀ text, FailsOnly (fun f => f.isEndless = true)
      (overrun text duration output) := by
    intro text
    rcases output with _ | length
    · exact .ok
    · rw [overrun]
      split
      · exact .bind (formatNumber_failsOnly length) fun _ _ => .ok
      · exact .ok
  have hstart : FailsOnly (fun f => f.isEndless = true) (fadeOutStart duration output) := by
    rcases output with _ | length
    · exact .ok
    · exact formatNumber_failsOnly _
  rw [fadeStep]
  rcases hn : formatNumber duration with g | text
  · exact .error (formatNumber_failsOnly duration g hn)
  · rcases hw : overrun text duration output with g | ws
    · simp only [hw]
      exact .error (hwarning text g hw)
    · simp only [hw]
      split
      · exact hstart.map.map
      · exact .ok

/-- A fade counts no image, and takes no notice of those counted before it. -/
theorem fadeStep_images (direction : Word FadeDirection) (duration : Double)
    (output : Option Double) (n : Nat) :
    fadeStep direction duration output n =
      { fadeStep direction duration output 0 with images := n } := by
  simp only [fadeStep]
  rcases hn : formatNumber duration with g | text
  · rfl
  · rcases hw : overrun text duration output with g | ws
    · simp only [hw]
    · simp only [hw]
      split
      · rfl
      · rfl

/-! ## Commands -/

/-- **The fault that building a command comes to,** if it does. -/
def fault? (ctx : Context) (c : Command) : Option Fault :=
  match (build ctx 0 c).outcome with
  | .error f => some f
  | .ok _ => none

/-- Whether a command can be built does not depend on the images counted before it. -/
theorem outcome_build_error (ctx : Context) (n : Nat) (c : Command) (f : Fault) :
    (build ctx n c).outcome = .error f ↔ fault? ctx c = some f := by
  have hzero : (build ctx 0 c).outcome = .error f ↔ fault? ctx c = some f := by
    rw [fault?]
    rcases (build ctx 0 c).outcome with g | a
    · simp
    · simp
  rw [← hzero]
  cases c
  case fade direction duration =>
    rw [build, build, fadeStep_images]
  case burn kind content place =>
    -- the number of an image only appears in its labels
    have himage : ∀ n, (fragmentOf (imageText (quote (Text.unquoted content)) n place) = .error f ↔
        imageCoordinates place = .error f) := by
      intro n
      rw [imageText]
      rcases imageCoordinates place with g | xy
      · simp [fragmentOf, Except.map, bind, Except.bind]
      · simp [fragmentOf, Except.map, bind, Except.bind, pure, Except.pure]
    rcases kind with (_ | _ | _) | _
    case known.text => rfl
    case known.subtitles => rfl
    all_goals exact (himage n).trans (himage 0).symm
  all_goals rfl

/-- Nor do its warnings. -/
theorem warnings_build (ctx : Context) (n : Nat) (c : Command) :
    (build ctx n c).warnings = (build ctx 0 c).warnings := by
  cases c
  case fade direction duration => rw [build, build, fadeStep_images]
  case burn kind content place => rcases kind with (_ | _ | _) | _ <;> rfl
  all_goals rfl

/-- The margins that building a command checks; a crop of no pixels takes nothing. -/
def margins? : Command → Option Margins
  | .crop size side => if size = 0 then none else some (.total [(size, side)])
  | .mergedCrop m _ => if m.horizontal = 0 ∧ m.vertical = 0 then none else some m
  | _ => none

/-- A crop that leaves nothing of the frame cannot be built. -/
theorem fault?_of_checkBounds {m : Margins} {f : Fault} (hm : margins? c = some m)
    (hf : m.checkBounds ctx.descriptor = .error f) : fault? ctx c = some f := by
  have hfilter := filter_of_checkBounds hf
  rw [← outcome_build_error ctx 0]
  cases c
  case crop size side =>
    rw [margins?] at hm
    split at hm
    · cases hm
    · next hsize =>
      obtain rfl := Option.some.inj hm
      rw [build, cropText, if_neg hsize, hfilter]
      rfl
  case mergedCrop m' detect =>
    rw [margins?] at hm
    split at hm
    · cases hm
    · next hsize =>
      obtain rfl := Option.some.inj hm
      rw [build, mergedCropText, if_neg hsize, hfilter]
      rfl
  all_goals cases hm

/-- **What a command can fail for.** -/
inductive Fails (ctx : Context) : Command → Fault → Prop where
  | long {c : Command} : Fails ctx c .numeralTooLong
  | bounds {c : Command} {m : Margins} {f : Fault} (margins : margins? c = some m)
      (bounds : m.checkBounds ctx.descriptor = .error f) : Fails ctx c f
  | endless {direction : Word FadeDirection} {duration : Double} {f : Fault}
      (durations : duration = .infinity false ∨ ∃ x, ctx.duration = some x ∧ x.inRange = false)
      (fault : f.isEndless = true) : Fails ctx (.fade direction duration) f

/-- **Building a plain command or a merged crop** fails for one of these. -/
theorem fails_of_fault? (hc : c.Plain ∨ ∃ m detect, c = .mergedCrop m detect) {f : Fault}
    (h : fault? ctx c = some f) : Fails ctx c f := by
  rw [← outcome_build_error ctx 0] at h
  have long : ∀ {text : Except Fault String}, FailsOnly (· = .numeralTooLong) text →
      fragmentOf text = .error f → Fails ctx c f := by
    intro text htext hf
    obtain rfl := htext.map f hf
    exact .long
  have bounds : ∀ {m : Margins} {text : Except Fault String}, margins? c = some m →
      FailsOnly (fun f => f = .numeralTooLong ∨ m.checkBounds ctx.descriptor = .error f) text →
      fragmentOf text = .error f → Fails ctx c f := by
    intro m text hm htext hf
    rcases htext.map f hf with rfl | hbounds
    · exact .long
    · exact .bounds hm hbounds
  cases c
  case scale width height aspect => exact long (scaleText_failsOnly width height aspect) h
  case crop size side =>
    rw [build, cropText] at h
    split at h
    · cases h
    · next hsize =>
      exact bounds (by rw [margins?, if_neg hsize]) (filter_failsOnly _ _) h
  case mergedCrop m detect =>
    rw [build, mergedCropText] at h
    split at h
    · cases h
    · next hsize =>
      exact bounds (by rw [margins?, if_neg hsize]) (filter_failsOnly _ _).map h
  case fade direction duration =>
    rcases hc with hlength | ⟨_, _, ⟨⟩⟩
    refine .endless (hlength.symm.imp_right fun hlength => ?_) (fadeStep_failsOnly _ _ _ _ f h)
    by_contra houtput
    obtain ⟨a, ha⟩ := @fadeStep_ok direction _ ctx.duration hlength
      (fun x hx => by simpa using fun hin => houtput ⟨x, hx, hin⟩) 0
    rw [build, ha] at h
    cases h
  case burn kind content place =>
    rcases hc with ⟨p, rfl⟩ | ⟨_, _, ⟨⟩⟩
    rcases kind with (_ | _ | _) | _
    case known.text => exact long (drawText_failsOnly content p _ 0) h
    all_goals cases h
  case caption text place alignment margin =>
    rcases hc with ⟨p, rfl⟩ | ⟨_, _, ⟨⟩⟩
    exact long (drawText_failsOnly text p alignment margin) h
  case deduplicate cycle => exact long (writeInt_failsOnly cycle).map h
  all_goals cases h

/-! ## Runs -/

/-- **Building stops at the first command that cannot be built.** -/
theorem run_outcome_error (ctx : Context) (n : Nat) (cs : List Command) (f : Fault) :
    (run (steps ctx n cs)).outcome = .error f ↔ cs.findSome? (fault? ctx) = some f := by
  induction cs generalizing n with
  | nil => exact ⟨by rintro ⟨⟩, by rintro ⟨⟩⟩
  | cons c cs ih =>
    rw [steps, run, List.findSome?_cons]
    have hc := outcome_build_error ctx n c
    rcases ho : (build ctx n c).outcome with g | a
    · have hg := (hc g).1 ho
      simp only [hg, Except.error.injEq, Option.some.injEq]
    · -- this command is built, so it is one of the others
      have hnone : fault? ctx c = none := by
        rw [Option.eq_none_iff_forall_ne_some]
        intro g hg
        rw [(hc g).2 hg] at ho
        cases ho
      rw [hnone, ← ih (build ctx n c).images]
      simp only
      rcases (run (steps ctx (build ctx n c).images cs)).outcome with g | later
      · exact ⟨fun h => h, fun h => h⟩
      · exact ⟨by rintro ⟨⟩, by rintro ⟨⟩⟩

/-- **The warnings of a script** that is built are those of all its commands. -/
theorem run_warnings {ctx : Context} {n : Nat} {cs : List Command} {arguments : List Argument}
    (h : (run (steps ctx n cs)).outcome = .ok arguments) :
    (run (steps ctx n cs)).warnings = cs.flatMap fun c => (build ctx 0 c).warnings := by
  induction cs generalizing n arguments with
  | nil => rfl
  | cons c cs ih =>
    rw [steps, run] at h ⊢
    rcases ho : (build ctx n c).outcome with f | o
    · simp only [ho] at h
      cases h
    · simp only [ho] at h ⊢
      rcases hlater : (run (steps ctx (build ctx n c).images cs)).outcome with f | later
      · rw [hlater] at h
        cases h
      · rw [List.flatMap_cons, ih hlater, warnings_build]

end Filter

/-! ## The length of the output -/

variable {commands : List Command} {descriptor : Option Descriptor} {settings : Settings}

/-- **The length of the output of plain commands** is known, or known to be unknown; and what fades
are built with is in the range of doubles if the length of the media file is. -/
theorem outputDuration_plain (descriptor : Option Descriptor) (h : ∀ c ∈ commands, c.Plain) :
    ∃ duration, outputDuration commands descriptor = .ok duration ∧
      ((∀ x, descriptor.bind Descriptor.duration = some x → x.inRange = true) →
        ∀ x, (Filter.Context.of descriptor duration).duration = some x → x.inRange = true) := by
  rw [outputDuration]
  rcases hlast : (commands.filterMap Command.trim?).getLast? with _ | ⟨start, stop⟩
  · refine ⟨_, rfl, fun hsource x hx => hsource x ?_⟩
    -- what stands in for an unknown length is that of the media file
    rcases hd : descriptor.bind Descriptor.duration with _ | y
    · simp [Filter.Context.of, hd] at hx
    · simpa [Filter.Context.of, hd] using hx
  · -- the last trim is a plain command, so both of its times are lengths
    have hplain := h _ (mem_of_mem_trims (List.mem_of_getLast? hlast))
    obtain ⟨hline, hvalid⟩ := hplain start (by simp)
    obtain ⟨hline', hvalid'⟩ := hplain stop (by simp)
    obtain ⟨x, hx, hxlength⟩ := secondsOf_of_isValidTime hline hvalid
    obtain ⟨y, hy, hylength⟩ := secondsOf_of_isValidTime hline' hvalid'
    have hyrange := Double.inRange_of_isLength hylength
    simp only [hx, hy, bind, Except.bind]
    refine ⟨_, rfl, ?_⟩
    rintro hsource _ ⟨⟩
    refine Double.inRange_of_isLength (Double.isLength_remaining ?_ hxlength)
    split
    · next length hlength => exact Double.inRange_min hyrange (hsource length hlength)
    · exact hyrange

/-! ## Compiling -/

/-- A script that is built has a command line. -/
theorem finish_of_outcome {ctx : Filter.Context} {merged : List Command} {run : Filter.Run}
    (hrun : run = Filter.run (Filter.steps ctx 0 merged)) {arguments : List Argument}
    (h : run.outcome = .ok arguments) (draft : Draft) (settings : Settings)
    (source output : String) :
    ∃ c, draft.finish settings source output run = .ok c := by
  subst hrun
  obtain ⟨ts, -, hargs⟩ := assemble_built (Filter.run_steps h) settings source output
  exact ⟨_, by rw [Draft.finish, h]; simp only [bind, Except.bind, hargs]; rfl⟩

/-- **What stops a draft:** its crops when they are merged, or the first command that cannot be
built. -/
inductive Draft.Stops (draft : Draft) (descriptor : Option Descriptor) (f : Fault) : Prop where
  | merging (failed : mergeCrops draft.commands descriptor = .error f)
  | building {merged : List Command} {duration : Option Double}
      (merging : mergeCrops draft.commands descriptor = .ok merged)
      (length : outputDuration draft.commands descriptor = .ok duration)
      (first : merged.findSome? (Filter.fault? (.of descriptor duration)) = some f)

/-- **How compiling a draft of plain commands fails:** for the name of the file to write, for what
stops it, or else for file names that are no texts. -/
theorem compile_draft_error_iff {draft : Draft} (hplain : ∀ c ∈ draft.commands, c.Plain)
    {f : Fault} :
    (draft.compile descriptor settings).result = .error f ↔
      outputName draft.commands settings (sourceName draft settings descriptor) = .error f ∨
      ∃ output, outputName draft.commands settings (sourceName draft settings descriptor) =
          .ok output ∧
        (draft.Stops descriptor f ∨ (∀ g, ¬ draft.Stops descriptor g) ∧
          nameTexts (sourceName draft settings descriptor) output = .error f) := by
  obtain ⟨duration, hduration, -⟩ := outputDuration_plain descriptor hplain
  rw [Draft.compile]
  rcases houtput : outputName draft.commands settings (sourceName draft settings descriptor) with
    g | output
  · simp
  rcases hmerged : mergeCrops draft.commands descriptor with g | merged
  · have hstops : ∀ e, draft.Stops descriptor e ↔ g = e := by
      intro e
      constructor
      · rintro (hfailed | ⟨hok, -, -⟩)
        · exact Except.error.inj (hmerged.symm.trans hfailed)
        · cases hmerged.symm.trans hok
      · rintro rfl
        exact .merging hmerged
    simp [hstops]
  have hbuild : buildScript draft merged descriptor =
      .ok (Filter.run (Filter.steps (.of descriptor duration) 0 merged)) := by
    rw [buildScript, hduration]
    rfl
  have hstops : ∀ e, draft.Stops descriptor e ↔
      (Filter.run (Filter.steps (.of descriptor duration) 0 merged)).outcome = .error e := by
    intro e
    rw [Filter.run_outcome_error]
    constructor
    · rintro (hfailed | ⟨hmerged', hduration', hfirst⟩)
      · cases hmerged.symm.trans hfailed
      · obtain rfl := Except.ok.inj (hmerged.symm.trans hmerged')
        obtain rfl := Except.ok.inj (hduration.symm.trans hduration')
        exact hfirst
    · exact .building hmerged hduration
  rcases ho : (Filter.run (Filter.steps (.of descriptor duration) 0 merged)).outcome with
    g | arguments
  · -- a command that cannot be built comes before the file names
    rcases hnames : nameTexts (sourceName draft settings descriptor) output with e | ⟨s, o⟩
    · simp [hbuild, hnames, ho, hstops, Except.bind]
    · have hfinish : draft.finish settings s o
          (Filter.run (Filter.steps (.of descriptor duration) 0 merged)) = .error g := by
        rw [Draft.finish, ho]
        rfl
      simp [hbuild, hnames, ho, hstops, hfinish]
  · rcases hnames : nameTexts (sourceName draft settings descriptor) output with e | ⟨s, o⟩
    · simp [hbuild, hnames, ho, hstops, Except.bind]
    · obtain ⟨c, hfinish⟩ := finish_of_outcome rfl ho draft settings s o
      simp [hbuild, hnames, ho, hstops, hfinish]

/-! ## File names -/

/-- Whether a value is a file name, or null for none. -/
def Json.isName : Json → Bool
  | .null | .text _ => true
  | _ => false

/-- **File names as they should be given:** every one is a text or null. -/
structure Named (descriptor : Option Descriptor) (settings : Settings) : Prop where
  input : settings.input.isName = true
  output : settings.output.isName = true
  filename : ∀ d, descriptor = some d → d.filename.isName = true

theorem Json.text_of_isName {j : Json} (h : j.isName = true) (hgiven : j.isGiven = true) :
    ∃ s, j = .text s := by
  cases j
  case text s => exact ⟨s, rfl⟩
  case null => cases hgiven
  all_goals cases h

/-- The file to read is a text. -/
theorem Named.sourceName_text (h : Named descriptor settings) (draft : Draft) :
    ∃ s, sourceName draft settings descriptor = .text s := by
  have hfilename : ((descriptor.map Descriptor.filename).getD .null).isName = true := by
    rcases descriptor with _ | d
    · rfl
    · exact h.filename d rfl
  rw [sourceName, firstGiven]
  rcases hfind : [Json.text draft.filename, settings.input,
      (descriptor.map Descriptor.filename).getD .null].find? Json.isGiven with _ | j
  · exact ⟨_, rfl⟩
  · have hgiven := List.find?_some hfind
    have hmem := List.mem_of_find?_eq_some hfind
    simp only [List.mem_cons, List.not_mem_nil, or_false] at hmem
    rcases hmem with rfl | rfl | rfl
    · exact ⟨_, rfl⟩
    · exact Json.text_of_isName h.input hgiven
    · exact Json.text_of_isName hfilename hgiven

/-- **With file names as they should be,** nothing is left but what stops the draft. -/
theorem compile_draft_error_iff_stops {draft : Draft} (hnamed : Named descriptor settings)
    (hplain : ∀ c ∈ draft.commands, c.Plain) {f : Fault} :
    (draft.compile descriptor settings).result = .error f ↔ draft.Stops descriptor f := by
  obtain ⟨source, hsource⟩ := hnamed.sourceName_text draft
  obtain ⟨output, houtput⟩ : ∃ o, outputName draft.commands settings (.text source) =
      .ok (.text o) := by
    rw [outputName_text]
    split
    · next hgiven =>
      obtain ⟨o, ho⟩ := Json.text_of_isName hnamed.output hgiven
      exact ⟨o, by rw [ho]⟩
    · exact ⟨_, rfl⟩
  rw [compile_draft_error_iff hplain, hsource, houtput]
  simp [nameTexts]

/-- **How compiling fails,** with file names as they should be: in parsing, or for what stops the
script. -/
theorem compile_error_iff {text : String} (hnamed : Named descriptor settings) {f : Fault} :
    compile text descriptor settings = .error f ↔
      parse .bare text = .error f ∨
        ∃ s, parse .bare text = .ok s ∧ (Draft.ofScript s).Stops descriptor f := by
  rw [compile, compileLogged]
  rcases hparse : parse .bare text with g | s
  · simp
  · simp [compile_draft_error_iff_stops hnamed (plain_ofScript hparse)]

end ClipScript
