/-
# What compiling comes to

With file names that are texts, a finite media file and numbers of no more than
`digitLimit` digits, compiling can come to three things. It gives a result, or the fault
that the crops leave nothing of the frame; or the first command that cannot be built is
a fade with a numeral so long that it stands for no finite double (`compile_outcome`).
Nothing reports such a fade: the directive is understood, and writing its duration is
what fails.

What else is wrong with a script is in the result. Every directive that is rejected and
every `input` after the first has its message there, and every command its warnings.
-/
import ClipScript.Proofs.Cropping.Bounds
import ClipScript.Proofs.Script.Echo

set_option autoImplicit false

namespace ClipScript

open Number

variable {descriptor : Option Descriptor} {settings : Settings} {f : Fault}

/-! ## Endless fades -/

/-- **The first command that cannot be built is an endless fade:** the commands before it have no
crop that leaves nothing of the frame. -/
def Draft.ComesToEndlessFade (draft : Draft) (descriptor : Option Descriptor) : Prop :=
  ∃ before direction after,
    mergeCrops draft.commands descriptor =
      .ok (before ++ .fade direction (.infinity false) :: after) ∧
    ∀ c ∈ before, ∀ m, Filter.margins? c = some m → m.checkBounds descriptor = .ok ()

theorem fault?_endlessFade (ctx : Filter.Context) (direction : Word FadeDirection) :
    Filter.fault? ctx (.fade direction (.infinity false)) = some .infiniteInteger := by
  rw [← Filter.outcome_build_error ctx 0, Filter.build, Filter.fadeStep_infinity]

/-- With a finite length of the output, only an infinite duration is too long for a fade. -/
theorem fault?_finite {ctx : Filter.Context}
    (houtput : ∀ x, ctx.duration = some x → x.inRange = true) {c : Command}
    (hc : c.Plain ∨ ∃ m detect, c = .mergedCrop m detect) (h : Filter.fault? ctx c = some f) :
    f = .numeralTooLong ∨
      (∃ m, Filter.margins? c = some m ∧ m.checkBounds ctx.descriptor = .error f) ∨
      f = .infiniteInteger ∧ ∃ direction, c = .fade direction (.infinity false) := by
  rcases Filter.fails_of_fault? hc h with _ | ⟨hm, hbounds⟩ | @⟨direction, _, _, rfl | hoff, -⟩
  · exact .inl rfl
  · exact .inr (.inl ⟨_, hm, hbounds⟩)
  · rw [fault?_endlessFade] at h
    exact .inr (.inr ⟨(Option.some.inj h).symm, direction, rfl⟩)
  · obtain ⟨x, hx, hxrange⟩ := hoff
    rw [houtput x hx] at hxrange
    cases hxrange

/-- **What stops a draft with a finite media file:** a number that is too long, its crops, or an
endless fade that is come to. -/
theorem stops_of_finite {draft : Draft} (hplain : ∀ c ∈ draft.commands, c.Plain)
    (hrange : ∀ x, descriptor.bind Descriptor.duration = some x → x.inRange = true)
    (h : draft.Stops descriptor f) :
    f = .numeralTooLong ∨
      (Margins.total (crops draft.commands)).checkBounds descriptor = .error f ∨
      f = .infiniteInteger ∧ draft.ComesToEndlessFade descriptor := by
  rcases h with hfailed | @⟨merged, duration, hmerged, hduration, hfirst⟩
  · rcases mergeCrops_cases draft.commands descriptor with
      ⟨-, hmerged⟩ | ⟨-, ⟨g, hbounds, hfailed'⟩ | ⟨detect, -, hmerged⟩⟩
    · cases hmerged.symm.trans hfailed
    · obtain rfl := Except.error.inj (hfailed'.symm.trans hfailed)
      exact .inr (.inl hbounds)
    · cases hmerged.symm.trans hfailed
  · obtain ⟨duration', hduration', houtput⟩ := outputDuration_plain descriptor hplain
    obtain rfl : duration = duration' := Except.ok.inj (hduration.symm.trans hduration')
    obtain ⟨before, c, after, rfl, hfault, hbefore⟩ := List.findSome?_eq_some_iff.1 hfirst
    have hc : c ∈ before ++ c :: after := by simp
    have hkind := plain_of_mergeCrops hplain hmerged hc
    rcases fault?_finite (houtput hrange) hkind hfault with
      hlong | ⟨m, hm, hbounds⟩ | ⟨hinfinite, direction, rfl⟩
    · exact .inl hlong
    · rw [margins_of_mergeCrops hplain hmerged hc hm] at hbounds
      exact .inr (.inl hbounds)
    · refine .inr (.inr ⟨hinfinite, before, direction, after, hmerged, fun c hc m hm => ?_⟩)
      -- a crop that did not fit would have been the first to fail
      rcases hbounds : m.checkBounds descriptor with g | ⟨⟩
      · have hcrop : Filter.fault? (.of descriptor duration) c = some g :=
          Filter.fault?_of_checkBounds hm hbounds
        rw [hbefore c hc] at hcrop
        cases hcrop
      · rfl

/-- **A draft that comes to an endless fade** is stopped by it, or by a number that is too long. -/
theorem stops_of_comesToEndlessFade {draft : Draft} (hplain : ∀ c ∈ draft.commands, c.Plain)
    (hrange : ∀ x, descriptor.bind Descriptor.duration = some x → x.inRange = true)
    (h : draft.ComesToEndlessFade descriptor) :
    ∃ f, draft.Stops descriptor f ∧ (f = .infiniteInteger ∨ f = .numeralTooLong) := by
  obtain ⟨before, direction, after, hmerged, hbefore⟩ := h
  obtain ⟨duration, hduration, houtput⟩ := outputDuration_plain descriptor hplain
  have hfirst : (before ++ .fade direction (.infinity false) :: after).findSome?
      (Filter.fault? (.of descriptor duration)) =
      (before.findSome? (Filter.fault? (.of descriptor duration))).or (some .infiniteInteger) := by
    rw [List.findSome?_append, List.findSome?_cons, fault?_endlessFade]
  rcases hearlier : before.findSome? (Filter.fault? (.of descriptor duration)) with _ | g
  · rw [hearlier, Option.none_or] at hfirst
    exact ⟨_, .building hmerged hduration hfirst, .inl rfl⟩
  · rw [hearlier, Option.some_or] at hfirst
    refine ⟨g, .building hmerged hduration hfirst, ?_⟩
    obtain ⟨c, hc, hfault⟩ := List.exists_of_findSome?_eq_some hearlier
    have hkind := plain_of_mergeCrops hplain hmerged (List.mem_append_left _ hc)
    rcases fault?_finite (houtput hrange) hkind hfault with
      hlong | ⟨m, hm, hbounds⟩ | ⟨hinfinite, -⟩
    · exact .inr hlong
    · cases (hbefore c hc m hm).symm.trans hbounds
    · exact .inl hinfinite

/-! ## Reports -/

/-- The texts of the inputs that do not count. -/
theorem keepFirstInput_extra (seen : Bool) (cs : List (Command × String)) :
    (keepFirstInput seen cs).2 =
      ((cs.filter fun c => c.1.isInput).drop (if seen then 0 else 1)).map Prod.snd := by
  induction cs generalizing seen with
  | nil => simp [keepFirstInput]
  | cons c cs ih =>
    rw [keepFirstInput]
    by_cases hc : c.1.isInput = true
    · rcases seen with _ | _
      · simp [hc, ih]
      · simp [hc, ih]
    · simp [hc, ih]

/-- **The diagnostics that only compiling adds:** one for every input after the first. -/
def Script.extraInputs (s : Script Command) : List Diagnostic :=
  ((s.understood.filter fun x => x.1.isInput).drop 1).map fun x => extraInput x.2

theorem diagnostics_ofScript (s : Script Command) :
    (Draft.ofScript s).diagnostics = s.diagnostics ++ s.extraInputs := by
  have hdiagnostics : (Draft.ofScript s).diagnostics =
      s.diagnostics ++ (keepFirstInput false s.understood).2.map extraInput := by
    rw [Draft.ofScript]
  rw [hdiagnostics, keepFirstInput_extra, List.map_map]
  rfl

/-- The message about an input that does not count. -/
def extraInputMessage (snippet : String) : String :=
  "Only one input command is allowed: " ++ snippet

/-- **What a result reports** of a script: every directive that is rejected and every input after
the first among the errors, and every warning of a command that is built. -/
structure Compilation.Reports (c : Compilation) (s : Script Command)
    (descriptor : Option Descriptor) : Prop where
  errors : c.errors = s.errors ++
    ((s.understood.filter fun x => x.1.isInput).drop 1).map fun x => extraInputMessage x.2
  warnings : ∃ merged duration, mergeCrops (Draft.ofScript s).commands descriptor = .ok merged ∧
    outputDuration (Draft.ofScript s).commands descriptor = .ok duration ∧
    c.warnings = merged.flatMap fun x => (Filter.build (.of descriptor duration) 0 x).warnings

/-- The diagnostics of a result are those of its script, and those that compiling adds. -/
theorem diagnostics_of_compile {text : String} {s : Script Command}
    (hparse : parse .bare text = .ok s) {c : Compilation}
    (h : compile text descriptor settings = .ok c) :
    c.diagnostics = s.diagnostics ++ s.extraInputs ∧
      c.errors = c.diagnostics.map Diagnostic.message := by
  obtain ⟨s', hparse', hcompile⟩ := compile_ok h
  obtain rfl := Except.ok.inj (hparse.symm.trans hparse')
  obtain ⟨_, _, _, _, -, -, -, -, hfinish⟩ := compile_draft_stages hcompile
  obtain ⟨⟨-, hdiagnostics, herrors, -⟩, -⟩ := finish_ok hfinish
  rw [herrors, hdiagnostics]
  exact ⟨diagnostics_ofScript s, rfl⟩

/-- **Everything is reported** in a result. -/
theorem reports_of_compile {text : String} {s : Script Command} (hparse : parse .bare text = .ok s)
    {c : Compilation} (h : compile text descriptor settings = .ok c) :
    c.Reports s descriptor := by
  obtain ⟨s', hparse', hcompile⟩ := compile_ok h
  obtain rfl := Except.ok.inj (hparse.symm.trans hparse')
  obtain ⟨merged, run, source, output, hmerged, hrun, -, -, hfinish⟩ :=
    compile_draft_stages hcompile
  obtain ⟨⟨-, -, herrors, hwarnings⟩, arguments, harguments, -⟩ := finish_ok hfinish
  obtain ⟨duration, hduration, rfl⟩ := buildScript_ok hrun
  constructor
  · rw [herrors, diagnostics_ofScript, List.map_append, Script.extraInputs, List.map_map]
    rfl
  · refine ⟨merged, duration, hmerged, hduration, ?_⟩
    rw [hwarnings, Filter.run_warnings harguments]

/-! ## Compiling -/

/-- **What compiling comes to,** with file names as they should be and a finite media file, if no
number has too many digits: the fault of an endless fade, if it comes to one; if not, a result
or a crop fault. A result reports everything else. -/
theorem compile_outcome {text : String} (hnamed : Named descriptor settings)
    (hrange : ∀ x, descriptor.bind Descriptor.duration = some x → x.inRange = true)
    (hlimit : ∀ f, compile text descriptor settings = .error f → f.isDigitLimit = false) :
    ∃ s, parse .bare text = .ok s ∧
      ((Draft.ofScript s).ComesToEndlessFade descriptor →
        compile text descriptor settings = .error .infiniteInteger) ∧
      (¬ (Draft.ofScript s).ComesToEndlessFade descriptor →
        (∃ c, compile text descriptor settings = .ok c) ∨
          ∃ f, compile text descriptor settings = .error f ∧ f.isCropBounds = true) ∧
      ∀ c, compile text descriptor settings = .ok c → c.Reports s descriptor := by
  obtain ⟨s, hparse⟩ := exists_parse hnamed hlimit
  have hstops : ∀ f, (Draft.ofScript s).Stops descriptor f →
      compile text descriptor settings = .error f := fun f hf =>
    (compile_error_iff hnamed).2 (.inr ⟨s, hparse, hf⟩)
  refine ⟨s, hparse, fun hcomes => ?_, fun hnot => ?_, fun c hc => reports_of_compile hparse hc⟩
  · obtain ⟨f, hf, rfl | rfl⟩ := stops_of_comesToEndlessFade (plain_ofScript hparse) hrange hcomes
    · exact hstops _ hf
    · cases hlimit _ (hstops _ hf)
  · rcases hcompile : compile text descriptor settings with f | c
    · refine .inr ⟨f, rfl, ?_⟩
      rcases (compile_error_iff hnamed).1 hcompile with hfailed | ⟨s', hs', hf⟩
      · cases hparse.symm.trans hfailed
      · obtain rfl := Except.ok.inj (hparse.symm.trans hs')
        rcases stops_of_finite (plain_ofScript hparse) hrange hf with
          rfl | hbounds | ⟨-, hcomes⟩
        · cases hlimit _ hcompile
        · exact isCropBounds_of_checkBounds hbounds (hlimit f hcompile)
        · exact absurd hcomes hnot
    · exact .inl ⟨c, rfl⟩

/-- A script with an unknown directive, a second input, and a fade whose start is not known. -/
def faultyScript : String :=
  "input \"a.mp4\"\nshrink\nfade out for 2s\ninput \"b.mp4\""

theorem compile_outcome_faultyScript :
    ∃ c, compile faultyScript none {} = .ok c ∧
      c.errors = ["Unknown command: shrink",
        "Only one input command is allowed: input \"b.mp4\""] ∧ c.warnings.length = 1 := by
  obtain ⟨c, hc⟩ : ∃ c, compile faultyScript none {} = .ok c := by
    have hok : (compile faultyScript none {}).toOption.isSome = true := by decide +kernel
    rcases hcompile : compile faultyScript none {} with f | c
    · rw [hcompile] at hok
      cases hok
    · exact ⟨c, rfl⟩
  have hread : (parse .bare faultyScript).toOption.map (fun s => (s.errors, s.understood)) =
      some (["Unknown command: shrink"],
        [(.input "\"a.mp4\"" (some "a.mp4"), "input \"a.mp4\""),
          (.fade (.known .fadeOut) (.finite 2), "fade out for 2s"),
          (.input "\"b.mp4\"" (some "b.mp4"), "input \"b.mp4\"")]) := by
    decide +kernel
  obtain ⟨s, hs, -, -, hreports⟩ := @compile_outcome none {} faultyScript
    ⟨rfl, rfl, by simp⟩ (by simp) fun f hf => by cases hc.symm.trans hf
  rw [hs] at hread
  obtain ⟨herrors, hunderstood⟩ := Prod.mk.inj (Option.some.inj hread)
  obtain ⟨hreported, merged, duration, hmerged, hduration, hwarnings⟩ := hreports c hc
  refine ⟨c, hc, ?_, ?_⟩
  · rw [hreported, herrors, hunderstood]
    rfl
  · rw [Draft.commands, Draft.ofScript, hunderstood] at hmerged hduration
    obtain rfl := Except.ok.inj hmerged
    obtain rfl := Except.ok.inj hduration
    rw [hwarnings]
    rfl

/-! ## Numerals that are larger than any double -/

/-- A directive that fades in for some seconds. -/
def fadeTexts (seconds : List Char) : List String :=
  ["fade", "in", "for", String.ofList (seconds ++ ['s'])]

section

variable {c : Char} {ds : List Char}

/-- The command of a fade in. -/
theorem createFade_fadeIn {t : String} {x : Double} (h : readDecimal (withoutEnd "s" t) = .ok x) :
    createFade [("direction", some "in"), ("duration", some t)] =
      .ok (.fade (.known .fadeIn) x) := by
  have hdirection : Bindings.text [("direction", some "in"), ("duration", some t)] "direction" =
    .ok "in" := rfl
  have hduration : Bindings.text [("direction", some "in"), ("duration", some t)] "duration" =
    .ok t := rfl
  rw [createFade, hdirection, hduration]
  simp only [bind, Except.bind, h]
  rfl

/-- **A fade of more than four hundred digits** is understood, and endless. -/
theorem says_longFade (h : Text.isDigits (c :: ds) = true) (hzero : Text.digitValue? c ≠ some 0)
    (hlong : 400 < (c :: ds).length) :
    Says (fadeTexts (c :: ds)) (.fade (.known .fadeIn) (.infinity false),
      String.intercalate " " (fadeTexts (c :: ds))) := by
  have hread := readDecimal_long h hzero hlong
  rw [← @withoutEnd_append "s" _ (c :: ds) (@String.toList_ofList (c :: ds ++ ['s']))] at hread
  exact @Says.directive "fade" _ fadePattern _ _ (by rw [isCommentText]; decide) rfl
    (walkFrom_fade.2 ⟨"in", _, [], rfl, by decide, Shape.accepts_seconds_of_isDigits h, rfl, rfl⟩)
    rfl (createFade_fadeIn hread)

/-- The words of such a directive are words, and hold no separator. -/
theorem lexeme_fadeTexts (h : Text.isDigits (c :: ds) = true) :
    ∀ w ∈ fadeTexts (c :: ds), Lexeme .bare w.toList ∧ ';' ∉ w.toList ∧ ¬ isCommentText w := by
  obtain ⟨-, hdigits⟩ := isDigits_iff.1 h
  have hseconds : ((c :: (ds ++ ['s'])).all fun d => isWordChar d && d != ';') = true := by
    simp only [List.all_eq_true, Bool.and_eq_true, bne_iff_ne]
    intro d hd
    rcases (List.mem_append (s := c :: ds)).1 hd with hd | hd
    · exact ⟨forall_isDigit (by decide +kernel) (hdigits d hd),
        ne_of_isDigit (hdigits d hd) (by decide)⟩
    · rw [List.mem_singleton.1 hd]
      decide
  have hword : ∀ (e : Char) (es : List Char),
      ((e :: es).all fun d => isWordChar d && d != ';') = true →
      Lexeme .bare (e :: es) ∧ ';' ∉ e :: es ∧ ¬ isCommentText (String.ofList (e :: es)) := by
    intro e es hall
    simp only [List.all_eq_true, Bool.and_eq_true, bne_iff_ne] at hall
    refine ⟨.word fun d hd => (hall d hd).1, fun hmem => (hall _ hmem).2 rfl, fun hcomment => ?_⟩
    rw [isCommentText, String.toList_ofList] at hcomment
    obtain rfl : e = '#' := Option.some.inj hcomment
    exact absurd (hall _ List.mem_cons_self).1 (by decide)
  simp only [fadeTexts, List.mem_cons, List.not_mem_nil, or_false, forall_eq_or_imp, forall_eq,
    String.toList_ofList]
  exact ⟨hword 'f' ['a', 'd', 'e'] (by decide), hword 'i' ['n'] (by decide),
    hword 'f' ['o', 'r'] (by decide), hword c (ds ++ ['s']) hseconds⟩

theorem parse_longFade (h : Text.isDigits (c :: ds) = true) (hzero : Text.digitValue? c ≠ some 0)
    (hlong : 400 < (c :: ds).length) :
    ∃ s, parse .bare (String.intercalate " " (fadeTexts (c :: ds))) = .ok s ∧
      s.understood = [(.fade (.known .fadeIn) (.infinity false),
        String.intercalate " " (fadeTexts (c :: ds)))] := by
  have hlex := lexeme_fadeTexts h
  have hwell : WellLexed .bare (fadeTexts (c :: ds)) :=
    ⟨fun w hw => .inl (hlex w hw).1, List.pairwise_iff_forall_sublist.2 fun hsub =>
      (hlex _ (hsub.subset List.mem_cons_self)).1⟩
  have hlaid := @laid_intercalate .bare (fadeTexts (c :: ds)) (List.cons_ne_nil _ _) hwell
    (List.pairwise_iff_forall_sublist.2 fun hsub =>
      (hlex _ (hsub.subset List.mem_cons_self)).2.2)
  have htokens := map_text_tokenize_laid hlaid fun w hw => (hlex w hw).2.1
  have hsaid : ∀ g ∈ [(fadeTexts (c :: ds), Command.fade (.known .fadeIn) (.infinity false),
      String.intercalate " " (fadeTexts (c :: ds)))], Says g.1 g.2 :=
    List.forall_mem_singleton.2 (says_longFade h hzero hlong)
  obtain ⟨segments, hok, hunderstood, -⟩ :=
    segments_of_says hsaid (htokens.trans (List.append_nil _).symm)
  refine ⟨⟨segments⟩, ?_, hunderstood⟩
  rw [parse, Registry.parse, hok]
  rfl

/-- **A fade of more than four hundred digits** is the end of compiling. -/
theorem compile_longFade (hnamed : Named descriptor settings)
    (h : Text.isDigits (c :: ds) = true) (hzero : Text.digitValue? c ≠ some 0)
    (hlong : 400 < (c :: ds).length) :
    compile (String.intercalate " " (fadeTexts (c :: ds))) descriptor settings =
      .error .infiniteInteger := by
  obtain ⟨s, hs, hunderstood⟩ := parse_longFade h hzero hlong
  have hcommands : (Draft.ofScript s).commands = [.fade (.known .fadeIn) (.infinity false)] := by
    rw [Draft.commands, Draft.ofScript, hunderstood]
    rfl
  obtain ⟨duration, hduration, -⟩ := outputDuration_plain descriptor (plain_ofScript hs)
  have hmerged : mergeCrops (Draft.ofScript s).commands descriptor =
      .ok [.fade (.known .fadeIn) (.infinity false)] := by
    rw [hcommands]
    rfl
  refine (compile_error_iff hnamed).2 (.inr ⟨s, hs, .building hmerged hduration ?_⟩)
  rw [List.findSome?_cons, fault?_endlessFade]

end

/-- A fade of so many seconds that no double holds them. -/
def endlessScript : String :=
  String.intercalate " " (fadeTexts (List.replicate 401 '1'))

/-- **Not every script is compiled** or has crops to blame. -/
theorem compile_endlessScript :
    compile endlessScript none {} = .error .infiniteInteger ∧
      ¬ ∀ text : String, (∃ c, compile text none {} = .ok c) ∨
        ∃ f, compile text none {} = .error f ∧ (f.isCropBounds = true ∨ f.isDigitLimit = true) := by
  have hfault : compile endlessScript none {} = .error .infiniteInteger := by
    refine @compile_longFade none {} '1' (List.replicate 400 '1') ⟨rfl, rfl, by simp⟩ ?_
      (by decide) (by rw [List.length_cons, List.length_replicate]; decide)
    refine isDigits_iff.2 ⟨List.cons_ne_nil _ _, fun d hd => ?_⟩
    rw [List.eq_of_mem_replicate (n := 401) hd]
    decide
  refine ⟨hfault, fun hall => ?_⟩
  rcases hall endlessScript with ⟨c, hc⟩ | ⟨f, hf, hkind⟩
  · cases hfault.symm.trans hc
  · obtain rfl := Except.error.inj (hfault.symm.trans hf)
    rcases hkind with hkind | hkind
    · cases hkind
    · cases hkind

end ClipScript
