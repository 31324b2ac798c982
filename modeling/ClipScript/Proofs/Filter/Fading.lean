/-
# Fades in whole seconds

A fade is a filter of its own at the start of the output, and one at the end of it (`Fade.filters`).
When the durations of the fades and the length of the output are whole seconds, building a fade
never fails, and both what it makes and what it warns of are known exactly (`fadeStep_eq`).

A chain has the fades of its commands and no others (`Builds.fadesOf_eq`), since every other
filter has another name, and the texts in it are quoted. The warnings of a script are those of its
fades (`warnings_eq`), as nothing else that a script can ask for gives one. So the fades of a
compiled script fit its output (`fades_fit`).
-/
import ClipScript.Proofs.Compilation.Failures
import ClipScript.Proofs.Compilation.Lengths
import ClipScript.Proofs.Filter.Texts

set_option autoImplicit false

namespace ClipScript

/-! ## Fades -/

/-- The direction and the duration of a fade. -/
def Command.fade? : Command → Option (Word FadeDirection × Double)
  | .fade direction duration => some (direction, duration)
  | _ => none

/-- **A fade over whole seconds.** -/
structure Fade where
  direction : Word FadeDirection
  seconds : Nat
deriving DecidableEq

namespace Fade

/-- The fade of a command, whose duration is a double. -/
structure Of (command : Word FadeDirection × Double) (f : Fade) : Prop where
  direction : command.1 = f.direction
  seconds : command.2.Counts f.seconds

/-- Whether a fade has a part at the start of the output. -/
def atStart (f : Fade) : Bool := f.direction = .known .fadeIn ∨ f.direction = .known .both

/-- Whether a fade has a part at the end of the output. -/
def atEnd (f : Fade) : Bool := f.direction = .known .fadeOut ∨ f.direction = .known .both

/-- **The filters of a fade:** a part at the end ends with the output, unless it is longer, or the
length of the output is not known. -/
def filters (length : Option Nat) (f : Fade) : List String :=
  (if f.atStart then ["fade=t=in:st=0:d=" ++ toString f.seconds] else []) ++
    if f.atEnd then
      ["fade=t=out:st=" ++ toString (length.elim 0 (· - f.seconds)) ++ ":d=" ++
        toString f.seconds]
    else []

/-- **The warnings of a fade.** -/
def warnings (length : Option Nat) (f : Fade) : List String :=
  match length with
  | some l =>
    if l < f.seconds then
      ["Fade of " ++ toString f.seconds ++ "s is longer than the " ++ toString l ++ "s output"]
    else []
  | none => if f.atEnd then ["Source duration unknown; fade out starts at 0s"] else []

theorem fadeParts_direction (f : Fade) : Filter.fadeParts f.direction = (f.atStart, f.atEnd) := by
  obtain ⟨(_ | _ | _) | _, _⟩ := f
  all_goals rfl

/-- The first of some commands is no fade, or it is the first of their fades. -/
theorem cases_cons {c : Command} {cs : List Command} {fades : List Fade}
    (h : List.Forall₂ Fade.Of ((c :: cs).filterMap Command.fade?) fades) :
    (c.fade? = none ∧ List.Forall₂ Fade.Of (cs.filterMap Command.fade?) fades) ∨
      ∃ f rest duration, c = .fade f.direction duration ∧ duration.Counts f.seconds ∧
        fades = f :: rest ∧ List.Forall₂ Fade.Of (cs.filterMap Command.fade?) rest := by
  rcases hc : c.fade? with _ | x
  · rw [List.filterMap_cons_none hc] at h
    exact .inl ⟨rfl, h⟩
  · rw [List.filterMap_cons_some hc] at h
    obtain ⟨f, rest, ⟨hdirection, hseconds⟩, hrest, rfl⟩ := List.forall₂_cons_left_iff.1 h
    refine .inr ⟨f, rest, x.2, ?_, hseconds, rfl, hrest⟩
    cases c
    case fade =>
      obtain rfl := Option.some.inj hc
      rw [← hdirection]
    all_goals cases hc

end Fade

namespace Filter

/-! ## Building a fade -/

section Step

variable {f : Fade} {duration : Double} {output : Option Double} {length : Option Nat}

theorem fadeOutStart_eq (hf : duration.Counts f.seconds)
    (houtput : Option.Rel Double.Counts output length) :
    fadeOutStart duration output = .ok (toString (length.elim 0 (· - f.seconds))) := by
  cases houtput with
  | none =>
    have hzero : "0" = toString 0 := by decide
    exact congrArg Except.ok hzero
  | some hlength => exact formatNumber_of_counts ((hlength.remaining hf).roundPlaces 3)

theorem overrun_some {x : Double} {l : Nat} (hf : duration.Counts f.seconds) (hx : x.Counts l) :
    overrun (toString f.seconds) duration (some x) = .ok (f.warnings (some l)) := by
  rw [overrun, Fade.warnings]
  by_cases hlt : l < f.seconds
  · rw [if_pos ((hx.lt_iff hf).2 hlt), if_pos hlt, formatNumber_of_counts hx]
    rfl
  · rw [if_neg (mt (hx.lt_iff hf).1 hlt), if_neg hlt]

/-- **Building a fade in whole seconds.** -/
theorem fadeStep_eq (hf : duration.Counts f.seconds)
    (houtput : Option.Rel Double.Counts output length) (n : Nat) :
    fadeStep f.direction duration output n =
      ⟨.ok (some (.fragment (String.intercalate "," (f.filters length)))), f.warnings length,
        n⟩ := by
  have hstart := fadeOutStart_eq hf houtput
  rw [fadeStep, f.fadeParts_direction]
  simp only [formatNumber_of_counts hf]
  cases houtput with
  | none =>
    simp only [overrun, hstart, Fade.filters, Fade.warnings]
    by_cases hend : f.atEnd = true
    · simp [hend, fragmentOf, Except.map]
    · simp [hend, fragmentOf, Except.map]
  | some hlength =>
    simp only [overrun_some hf hlength, hstart, Fade.filters]
    by_cases hend : f.atEnd = true
    · simp [hend, fragmentOf, Except.map]
    · simp [hend, fragmentOf, Except.map]

end Step

/-! ## Fades of a chain -/

/-- Whether a filter is a fade: its name stands in front of the first equals sign. -/
def isFade (filter : List Char) : Bool := filter.takeWhile (· != '=') == "fade".toList

/-- **The fades of a chain.** -/
def fadesOf (chain : String) : List (List Char) := (filtersOf chain).filter isFade

section Chain

variable {ts parts : List String} {name t : String}

/-- **The fades of closed texts** that are joined by commas are those of each text. -/
theorem fadesOf_intercalate (h : ∀ t ∈ ts, Closed t) :
    fadesOf (String.intercalate "," ts) = ts.flatMap fadesOf := by
  by_cases hnil : ts = []
  · subst hnil
    rfl
  · rw [fadesOf, filtersOf_intercalate hnil h, List.filter_flatMap]
    rfl

theorem isFade_of_titled (h : Titled "fade" t) : isFade t.toList = true := by
  obtain ⟨rest, hrest⟩ := h.opens
  have htext : t.toList = "fade".toList ++ '=' :: rest := by
    rw [← hrest, String.toList_append, List.append_assoc]
    rfl
  rw [isFade, htext, takeWhile_name (by decide), beq_self_eq_true]

theorem fadesOf_of_named (hname : Apart ["fade"] name) (h : Named name t) : fadesOf t = [] := by
  have hother : ¬ isFade t.toList = true := by
    rw [isFade, beq_iff_eq]
    exact hname.takeWhile_ne List.mem_cons_self h.opens
  rw [fadesOf, h.single.filtersOf_eq, List.filter_cons_of_neg hother, List.filter_nil]

/-- Fades that are joined are the fades of the chain. -/
theorem fadesOf_fades (h : ∀ p ∈ parts, Titled "fade" p) :
    fadesOf (String.intercalate "," parts) = parts.map String.toList := by
  rw [fadesOf_intercalate fun p hp => (h p hp).solid.closed]
  induction parts with
  | nil => rfl
  | cons p parts ih =>
    have hp := h p List.mem_cons_self
    rw [List.flatMap_cons, List.map_cons, fadesOf, hp.solid.single.filtersOf_eq,
      List.filter_cons_of_pos (isFade_of_titled hp), List.filter_nil,
      ih fun q hq => h q (List.mem_cons_of_mem _ hq)]
    rfl

/-- The parts of a fade are filters of that name. -/
theorem titled_filters (f : Fade) (length : Option Nat) :
    ∀ p ∈ f.filters length, Titled "fade" p := by
  have hin : Titled "fade" "fade=t=in:st=0:d=" := ⟨by decide, by decide⟩
  have hout : Titled "fade" "fade=t=out:st=" := ⟨by decide, by decide⟩
  have hd : Solid ":d=" := by decide
  have hnumber : ∀ n : Nat, Solid (toString n) := fun n =>
    solid_of_numeral (Number.numeral_natToString n)
  intro p hp
  rw [Fade.filters, List.mem_append] at hp
  rcases hp with hp | hp
  · split at hp
    · rw [List.mem_singleton.1 hp]
      exact hin.append (hnumber _)
    · cases hp
  · split at hp
    · rw [List.mem_singleton.1 hp]
      exact ((hout.append (hnumber _)).append hd).append (hnumber _)
    · cases hp

end Chain

section Built

variable {ctx : Context} {n : Nat} {c : Command} {t : String}

/-- **Any other command** has no fades. -/
theorem fadesOf_build (hfade : c.fade? = none) (hpicture : c.isPicture = true) (ha : c.Aligned)
    (h : (build ctx n c).outcome = .ok (some (.fragment t))) : fadesOf t = [] := by
  have hnull : Apart ["fade"] "null" := by decide
  have hnames : ∀ name ∈ c.filterNames, Apart ["fade"] name := by
    rcases c with _ | _ | _ | _ | _ | _ | _ | ⟨(_ | _ | _) | _, _, _⟩ | _ | _ | _ | _ | _
    case fade => cases hfade
    all_goals simp only [Command.filterNames]
    all_goals decide
  obtain ⟨parts, rfl, hparts⟩ := exists_named_of_build hpicture ha h
  rw [fadesOf_intercalate fun p hp => have ⟨_, _, hnamed⟩ := hparts p hp; hnamed.single.closed,
    List.flatMap_eq_nil_iff]
  intro p hp
  obtain ⟨name, hname, hnamed⟩ := hparts p hp
  exact fadesOf_of_named (List.forall_mem_cons.2 ⟨hnull, hnames⟩ name hname) hnamed

/-- **The fades of a chain** are those of the commands, in their order. -/
theorem Builds.fadesOf_eq {cs : List Command} {ts : List String} {fades : List Fade}
    {length : Option Nat} (h : Builds ctx n cs ts) (ha : ∀ c ∈ cs, c.Aligned)
    (hfades : List.Forall₂ Fade.Of (cs.filterMap Command.fade?) fades)
    (hlength : Option.Rel Double.Counts ctx.duration length) :
    ts.flatMap fadesOf = (fades.flatMap (Fade.filters length)).map String.toList := by
  induction h generalizing fades with
  | nil =>
    cases hfades
    rfl
  | @picture n c cs t ts hpicture hbuilt _ ih =>
    rw [List.flatMap_cons]
    rcases Fade.cases_cons hfades with ⟨hother, hrest⟩ | ⟨f, rest, duration, rfl, hf, rfl, hrest⟩
    · rw [fadesOf_build hother hpicture (ha c List.mem_cons_self) hbuilt, List.nil_append]
      exact ih (fun d hd => ha d (List.mem_cons_of_mem _ hd)) hrest
    · -- the fragment of a fade is known
      rw [build, fadeStep_eq hf hlength] at hbuilt
      have ht : String.intercalate "," (f.filters length) = t := by
        simpa [Argument.fragment, Argument.of] using hbuilt
      rw [← ht, fadesOf_fades (titled_filters f length), List.flatMap_cons, List.map_append,
        ih (fun d hd => ha d (List.mem_cons_of_mem _ hd)) hrest]
  | @other n c cs ts hother _ ih =>
    rcases Fade.cases_cons hfades with ⟨-, hrest⟩ | ⟨f, rest, duration, rfl, -⟩
    · exact ih (fun d hd => ha d (List.mem_cons_of_mem _ hd)) hrest
    · cases hother

/-! ## Warnings -/

/-- **A command that a script can ask for** and that is no fade gives no warning. -/
theorem warnings_of_plain (hc : c.Plain ∨ ∃ m detect, c = .mergedCrop m detect)
    (hfade : c.fade? = none) : (build ctx 0 c).warnings = [] := by
  rcases hc with hc | ⟨m, detect, rfl⟩
  · cases c
    case fade => cases hfade
    case burn kind content place => rcases kind with (_ | _ | _) | _ <;> rfl
    case foreign => exact hc.elim
    all_goals rfl
  · rfl

/-- **The warnings of commands** are those of their fades, in their order. -/
theorem warnings_eq {cs : List Command} {fades : List Fade} {length : Option Nat}
    (hplain : ∀ c ∈ cs, c.Plain ∨ ∃ m detect, c = .mergedCrop m detect)
    (hfades : List.Forall₂ Fade.Of (cs.filterMap Command.fade?) fades)
    (hlength : Option.Rel Double.Counts ctx.duration length) :
    (cs.flatMap fun c => (build ctx 0 c).warnings) = fades.flatMap (Fade.warnings length) := by
  induction cs generalizing fades with
  | nil =>
    cases hfades
    rfl
  | cons c cs ih =>
    have hrest := fun d hd => hplain d (List.mem_cons_of_mem _ hd)
    rw [List.flatMap_cons]
    rcases Fade.cases_cons hfades with ⟨hother, htail⟩ | ⟨f, rest, duration, rfl, hf, rfl, htail⟩
    · rw [warnings_of_plain (hplain c List.mem_cons_self) hother, List.nil_append, ih hrest htail]
    · rw [build, fadeStep_eq hf hlength, List.flatMap_cons, ih hrest htail]

end Built

end Filter

/-! ## Compiled scripts -/

variable {text : String} {descriptor : Option Descriptor} {settings : Settings} {c : Compilation}

/-- Merging crops leaves the fades. -/
theorem fade?_mergeCrops {commands merged : List Command}
    (h : mergeCrops commands descriptor = .ok merged) :
    merged.filterMap Command.fade? = commands.filterMap Command.fade? :=
  filterMap_mergeCrops (fun _ _ => rfl) (fun _ _ => rfl) h

/-- The length that fades are built with is that of the output. -/
theorem counts_context {commands : List Command} {source length : Option Nat}
    {duration : Option Double}
    (hsource : Option.Rel Double.Counts (descriptor.bind Descriptor.duration) source)
    (hlength : OutputSeconds commands source length)
    (hduration : Option.Rel Double.Counts duration length) :
    Option.Rel Double.Counts (Filter.Context.of descriptor duration).duration length := by
  cases hduration with
  | some hcounts => exact .some hcounts
  | none =>
    -- a length that is not known is that of the media file
    cases hlength with
    | untrimmed _ => exact hsource

/-- The warnings of a compiled script are those of building its commands. -/
theorem warnings_of_fits {draft : Draft} (h : (draft.compile descriptor settings).result = .ok c)
    {l : CommandLine} (hl : l.Fits c.commands descriptor settings) :
    c.warnings = l.merged.flatMap fun d =>
      (Filter.build (.of descriptor l.duration) 0 d).warnings := by
  obtain ⟨merged, run, source, output, hmerged, hrun, -, -, hfinish⟩ := compile_draft_stages h
  obtain ⟨duration, hduration, rfl⟩ := buildScript_ok hrun
  obtain ⟨⟨hcommands, -, -, hwarnings⟩, arguments, harguments, -⟩ := finish_ok hfinish
  rw [← hcommands] at hmerged hduration
  obtain rfl := Except.ok.inj (hmerged.symm.trans hl.merged)
  obtain rfl := Except.ok.inj (hduration.symm.trans hl.duration)
  rw [hwarnings, Filter.run_warnings harguments]

/-- Merging crops adds at most a merged crop to plain commands. -/
theorem plain_mergeCrops {commands merged : List Command} (hplain : ∀ c ∈ commands, c.Plain)
    (h : mergeCrops commands descriptor = .ok merged) :
    ∀ c ∈ merged, c.Plain ∨ ∃ m detect, c = .mergedCrop m detect := by
  intro c hc
  rcases mem_mergeCrops h hc with ⟨hmem, -⟩ | ⟨detect, rfl⟩
  · exact .inl (hplain c hmem)
  · exact .inr ⟨_, detect, rfl⟩

/-- **Fades fit the output, in whole seconds.** In a compiled script whose trims have no fraction,
whose fades last whole seconds, and whose media file has a length in whole seconds or an unknown
one, the length of the output in whole seconds is determined. The fades of the chain are those of
the commands for that length, in their order, and so are the warnings. -/
theorem fades_fit (h : compile text descriptor settings = .ok c)
    (hwhole : ∀ times ∈ c.commands.filterMap Command.trim?, WithoutFraction times)
    {fades : List Fade} (hfades : List.Forall₂ Fade.Of (c.commands.filterMap Command.fade?) fades)
    {source : Option Nat}
    (hsource : Option.Rel Double.Counts (descriptor.bind Descriptor.duration) source) :
    ∃ (l : CommandLine) (length : Option Nat), l.Fits c.commands descriptor settings ∧
      c.args = l.args c.commands settings.overwrite ∧
      (∀ k, OutputSeconds c.commands source k ↔ k = length) ∧
      Filter.fadesOf (String.intercalate "," l.fragments) =
        (fades.flatMap (Fade.filters length)).map String.toList ∧
      c.warnings = fades.flatMap (Fade.warnings length) := by
  obtain ⟨s, -, hdraft⟩ := compile_ok h
  obtain ⟨l, hfits, hargs⟩ := exists_commandLine hdraft
  have hplain : ∀ d ∈ c.commands, d.Plain :=
    forall_command_of_compile (fun _ => trivial) (fun _ hd => hd.plain) h
  have hforward : ∀ d ∈ c.commands, d.Forward :=
    forall_command_of_compile (fun _ => trivial) (fun _ hd => hd.forward) h
  obtain ⟨length, hcounts, hlength⟩ :=
    outputSeconds_iff hplain hforward hwhole hsource hfits.duration
  have hcontext := counts_context hsource ((hlength length).2 rfl) hcounts
  rw [← fade?_mergeCrops hfits.merged] at hfades
  have haligned := aligned_of_mergeCrops (aligned_of_compile h) hfits.merged
  refine ⟨l, length, hfits, hargs, hlength, ?_, ?_⟩
  · rw [Filter.fadesOf_intercalate (hfits.fragments.closed haligned)]
    exact hfits.fragments.fadesOf_eq haligned hfades hcontext
  · rw [warnings_of_fits hdraft hfits]
    exact Filter.warnings_eq (plain_mergeCrops hplain hfits.merged) hfades hcontext

/-- A script with fades at both ends; its last trim goes beyond the end of a clip of twelve seconds,
and one fade is longer than what is left of it. -/
def trimmedFades : String :=
  "trim from 1 to 4\nfade in for 3s\nfade in/out for 9s\ntrim from 0:05 to 1:00\nfade out for 2s"

/-- A clip of twelve seconds. -/
def shortClip : Descriptor := { duration := some (.finite 12) }

theorem fades_fit_trimmedFades :
    ∃ c, compile trimmedFades (some shortClip) {} = .ok c ∧
      OutputSeconds c.commands (some 12) (some 7) ∧
      c.warnings = ["Fade of 9s is longer than the 7s output"] ∧
      ∃ l : CommandLine, l.Fits c.commands (some shortClip) {} ∧ c.args = l.args c.commands false ∧
        Filter.fadesOf (String.intercalate "," l.fragments) =
          ["fade=t=in:st=0:d=3", "fade=t=in:st=0:d=9", "fade=t=out:st=0:d=9",
            "fade=t=out:st=5:d=2"].map String.toList := by
  have hcommands : (compile trimmedFades (some shortClip) {}).toOption.map Compilation.commands =
      some [.trim "1" "4", .fade (.known .fadeIn) (.finite 3), .fade (.known .both) (.finite 9),
        .trim "0:05" "1:00", .fade (.known .fadeOut) (.finite 2)] := by
    decide +kernel
  rcases hc : compile trimmedFades (some shortClip) {} with f | c
  · rw [hc] at hcommands
    cases hcommands
  rw [hc] at hcommands
  have hlist := Option.some.inj hcommands
  have hwhole : ∀ times ∈ c.commands.filterMap Command.trim?, WithoutFraction times := by
    rw [hlist]
    exact List.forall_mem_cons.2 ⟨⟨by decide, by decide⟩,
      List.forall_mem_singleton.2 ⟨by decide, by decide⟩⟩
  have hfades : List.Forall₂ Fade.Of (c.commands.filterMap Command.fade?)
      [⟨.known .fadeIn, 3⟩, ⟨.known .both, 9⟩, ⟨.known .fadeOut, 2⟩] := by
    rw [hlist]
    exact .cons ⟨rfl, rfl, by decide⟩ (.cons ⟨rfl, rfl, by decide⟩
      (.cons ⟨rfl, rfl, by decide⟩ .nil))
  have hsource : Option.Rel Double.Counts
      ((some shortClip : Option Descriptor).bind Descriptor.duration) (some 12) :=
    .some ⟨rfl, by decide⟩
  obtain ⟨l, length, hfits, hargs, hlength, hfilters, hwarnings⟩ :=
    fades_fit hc hwhole hfades hsource
  have hstart : IsTime "0:05" 5 :=
    ⟨0, 0, 5, @HasParts.minutes ['0'] ['0', '5'] (by decide) (by decide),
      by decide, by decide, by decide, rfl⟩
  have hstop : IsTime "1:00" 60 :=
    ⟨0, 1, 0, @HasParts.minutes ['1'] ['0', '0'] (by decide) (by decide),
      by decide, by decide, by decide, rfl⟩
  have hseven : OutputSeconds c.commands (some 12) (some 7) := by
    refine .trimmed ?_ hstart hstop (by decide)
    rw [hlist]
    rfl
  obtain rfl := (hlength _).1 hseven
  refine ⟨c, rfl, hseven, ?_, l, hfits, hargs, ?_⟩
  · rw [hwarnings]
    decide +kernel
  · rw [hfilters]
    decide +kernel

end ClipScript
