/-
# Texts cannot change the filter graph

What a script gives to be written into the picture, and the names of the files that it lays
over it or burns into it, are texts that a user chooses freely. Two lists of commands that
are the same but for such texts (`SameButTexts`) are compiled alike: for the same media
facts and the same length of the output they fail with the same fault, or their video
chains have the same marks (`texts_keep_marks`). And the scan of a chain is outside quotes
behind every fragment, so none of them reaches into the next.

Each stage is compared with itself. Merging crops does not look at the texts
(`mergeCrops_agrees`), and building only puts them into fragments, which are alike then
(`build_agrees`). Where a fragment holds a word of the script as it is written, it has to be
one of the vocabulary: that is the alignment of a caption (`Aligned`), and parsing sees to it
(`aligned_of_parse`).
-/
import ClipScript.Proofs.Cropping.Bounds
import ClipScript.Proofs.Filter.Fragments

set_option autoImplicit false

namespace ClipScript

/-! ## Commands with other texts -/

/-- **The same command but for its text:** the text to be written, or the name of a file. -/
inductive Command.SameButTexts : Command → Command → Prop where
  | refl (c : Command) : SameButTexts c c
  | caption (text text' : String) (place : Word Placement) (alignment : Word Alignment)
      (margin : Int) :
    SameButTexts (.caption text place alignment margin) (.caption text' place alignment margin)
  | burn (kind : Word BurnKind) (content content' : String) (place : Word Placement) :
    SameButTexts (.burn kind content place) (.burn kind content' place)

namespace Command

variable {c c' : Command}

/-- **What does not look at texts** is the same for both. -/
theorem SameButTexts.congr {β : Type} {f : Command → β}
    (hcaption : ∀ text text' place alignment margin,
      f (.caption text place alignment margin) = f (.caption text' place alignment margin))
    (hburn : ∀ kind content content' place,
      f (.burn kind content place) = f (.burn kind content' place))
    (h : c.SameButTexts c') : f c = f c' := by
  rcases h with _ | _ | _
  · rfl
  · exact hcaption ..
  · exact hburn ..

theorem SameButTexts.isPicture_eq (h : c.SameButTexts c') : c.isPicture = c'.isPicture :=
  h.congr (fun _ _ _ _ _ => rfl) fun _ _ _ _ => rfl

end Command

/-- What is picked out of commands without a look at texts is the same. -/
theorem filterMap_eq_of_sameButTexts {β : Type} {f : Command → Option β}
    (hf : ∀ c c' : Command, c.SameButTexts c' → f c = f c') {cs cs' : List Command}
    (h : List.Forall₂ Command.SameButTexts cs cs') : cs.filterMap f = cs'.filterMap f := by
  induction h with
  | nil => rfl
  | cons hc _ ih => rw [List.filterMap_cons, List.filterMap_cons, hf _ _ hc, ih]

/-- **Merging crops** does not look at texts. -/
theorem mergeCrops_agrees {cs cs' : List Command}
    (h : List.Forall₂ Command.SameButTexts cs cs') (descriptor : Option Descriptor) :
    Agree (List.Forall₂ Command.SameButTexts) (mergeCrops cs descriptor)
      (mergeCrops cs' descriptor) := by
  have hcrop : ∀ c c' : Command, c.SameButTexts c' → c.crop? = c'.crop? := fun c c' hc =>
    hc.congr (fun _ _ _ _ _ => rfl) fun _ _ _ _ => rfl
  have hcrops : crops cs = crops cs' := filterMap_eq_of_sameButTexts hcrop h
  unfold mergeCrops
  rw [hcrops]
  by_cases hfew : (crops cs').length < 2
  · rw [if_pos hfew, if_pos hfew]
    exact .ok h
  · rw [if_neg hfew, if_neg hfew]
    refine .bind (.refl fun _ _ => rfl) fun _ _ _ _ _ => .ok (.cons (.refl _) ?_)
    -- the commands that are left are those at the same places
    exact List.rel_filter (fun c c' hc => by simp only [hcrop c c' hc]) h

namespace Filter

/-! ## Building -/

/-- Fragments that are alike, where there are any. -/
def AlikeFragments (o o' : Option Argument) : Prop :=
  ∀ t, o = some (.fragment t) → ∃ t', o' = some (.fragment t') ∧ Alike t t'

theorem fragmentOf_agrees {text text' : Except Fault String} (h : Agree Alike text text') :
    Agree AlikeFragments (fragmentOf text) (fragmentOf text') := by
  refine h.map fun s s' hs t ht => ?_
  have heq : s = t := by simpa [Argument.fragment, Argument.of] using ht
  exact ⟨s', rfl, heq ▸ hs⟩

variable {ctx : Context} {n : Nat} {c c' : Command} {cs cs' : List Command}

/-- **Building does not look at texts,** and what it makes of other texts is alike. -/
theorem build_agrees (ctx : Context) (n : Nat) (h : c.SameButTexts c') (ha : c.Aligned) :
    (build ctx n c).images = (build ctx n c').images ∧
      Agree AlikeFragments (build ctx n c).outcome (build ctx n c').outcome := by
  rcases h with _ | ⟨text, text', place, alignment, margin⟩ | ⟨kind, content, content', place⟩
  · refine ⟨rfl, .refl ?_⟩
    rintro o ho t rfl
    refine ⟨t, rfl, .refl ?_⟩
    by_cases hc : c.isPicture = true
    · exact closed_of_build hc ha ho
    · -- any other command has words for another part of the command line
      rw [Bool.not_eq_true] at hc
      rw [(build_other ctx n hc).1, Except.ok.injEq] at ho
      cases c
      all_goals cases ho
  · obtain ⟨a, rfl⟩ := ha
    exact ⟨rfl, fragmentOf_agrees (drawText_agrees text text' place a margin)⟩
  · rcases kind with (_ | _ | _) | _
    case known.text =>
      exact ⟨rfl, fragmentOf_agrees (drawText_agrees content content' place .left 0)⟩
    case known.subtitles => exact ⟨rfl, fragmentOf_agrees (.ok (subtitlesText_alike _ _ place))⟩
    all_goals exact ⟨rfl, fragmentOf_agrees (imageText_agrees _ _ n place)⟩

/-- **A run fails for both or for none,** with the same fault. -/
theorem run_agrees (ctx : Context) (n : Nat) (h : List.Forall₂ Command.SameButTexts cs cs')
    (ha : ∀ c ∈ cs, c.Aligned) :
    Agree (fun _ _ => True) (run (steps ctx n cs)).outcome (run (steps ctx n cs')).outcome := by
  induction h generalizing n with
  | nil => exact .ok trivial
  | @cons c c' cs cs' hc _ ih =>
    obtain ⟨himages, hagree⟩ := build_agrees ctx n hc (ha c List.mem_cons_self)
    have hlater := ih (build ctx n c).images fun d hd => ha d (List.mem_cons_of_mem _ hd)
    rw [steps, steps, run, run, ← himages]
    -- the first command fails for both, or else the others decide
    generalize (build ctx n c).outcome = o at hagree
    generalize (build ctx n c').outcome = o' at hagree
    cases hagree with
    | fails f => exact .fails f
    | ok _ => exact hlater.map fun _ _ _ => trivial

/-- **The fragments of both** are alike, one by one. -/
theorem Builds.alike {ts ts' : List String} (h : Builds ctx n cs ts) (h' : Builds ctx n cs' ts')
    (hsame : List.Forall₂ Command.SameButTexts cs cs') (ha : ∀ c ∈ cs, c.Aligned) :
    List.Forall₂ Alike ts ts' := by
  induction h generalizing cs' ts' with
  | nil =>
    obtain rfl := List.forall₂_nil_left_iff.1 hsame
    cases h'
    exact .nil
  | @picture n c cs t ts hpicture hbuilt _ ih =>
    obtain ⟨c', cs', hc, hcs, rfl⟩ := List.forall₂_cons_left_iff.1 hsame
    obtain ⟨himages, hagree⟩ := build_agrees ctx n hc (ha c List.mem_cons_self)
    rcases h' with _ | @⟨_, _, _, u, _, _, hbuilt', hrest'⟩ | ⟨hother', _⟩
    · rw [hbuilt, hbuilt'] at hagree
      obtain ⟨t', ht', halike⟩ := hagree.related t rfl
      have heq : u = t' := by simpa [Argument.fragment, Argument.of] using ht'
      subst heq
      rw [← himages] at hrest'
      exact .cons halike (ih hrest' hcs fun d hd => ha d (List.mem_cons_of_mem _ hd))
    · rw [← hc.isPicture_eq, hpicture] at hother'
      cases hother'
  | @other n c cs ts hother _ ih =>
    obtain ⟨c', cs', hc, hcs, rfl⟩ := List.forall₂_cons_left_iff.1 hsame
    rcases h' with _ | ⟨hpicture', _, _⟩ | ⟨_, hrest'⟩
    · rw [← hc.isPicture_eq, hother] at hpicture'
      cases hpicture'
    · exact ih hrest' hcs fun d hd => ha d (List.mem_cons_of_mem _ hd)

end Filter

/-! ## Commands of scripts -/

/-- **A directive becomes a command whose alignment is known.** -/
theorem Command.FromDirective.aligned {c : Command} (h : c.FromDirective) : c.Aligned := by
  cases h with
  | caption text place alignment margin => exact ⟨alignment, rfl⟩
  | _ => trivial

theorem aligned_of_parse {style : CommentStyle} {source : String} {s : Script Command}
    (h : parse style source = .ok s) : ∀ c ∈ s.commands, c.Aligned :=
  forall_command_of_fromDirective (fun _ => trivial) (fun _ hc => hc.aligned) h

theorem aligned_of_mergeCrops {commands merged : List Command} {descriptor : Option Descriptor}
    (ha : ∀ c ∈ commands, c.Aligned) (h : mergeCrops commands descriptor = .ok merged) :
    ∀ c ∈ merged, c.Aligned := by
  intro c hc
  rcases mem_mergeCrops h hc with ⟨hmem, -⟩ | ⟨detect, rfl⟩
  · exact ha c hmem
  · trivial

/-- The commands of a compiled script have alignments that are known. -/
theorem aligned_of_compile {text : String} {descriptor : Option Descriptor} {settings : Settings}
    {c : Compilation} (h : compile text descriptor settings = .ok c) :
    ∀ d ∈ c.commands, d.Aligned :=
  forall_command_of_compile (fun _ => trivial) (fun _ hd => hd.aligned) h

/-! ## Command lines -/

/-- **The words of some commands:** their crops are merged, each of them is built, and the arguments
are put together. -/
def commandWords (commands : List Command) (descriptor : Option Descriptor)
    (duration : Option Double) (settings : Settings) (source output : String) :
    Except Fault (List String) := do
  let merged ← mergeCrops commands descriptor
  let arguments ← (Filter.run (Filter.steps (.of descriptor duration) 0 merged)).outcome
  assemble (overwriteArgument settings ++ arguments) source output

/-- A compiled script has the words of its commands. -/
theorem commandWords_of_compile {text : String} {descriptor : Option Descriptor}
    {settings : Settings} {c : Compilation} (h : compile text descriptor settings = .ok c) :
    ∃ duration source output, outputDuration c.commands descriptor = .ok duration ∧
      commandWords c.commands descriptor duration settings source output = .ok c.args := by
  obtain ⟨s, -, hdraft⟩ := compile_ok h
  obtain ⟨merged, duration, arguments, source, output, hcommands, hmerged, hduration, hrun, -, -,
    hargs⟩ := compile_draft_ok hdraft
  rw [hcommands]
  refine ⟨duration, source, output, hduration, ?_⟩
  rw [commandWords, hmerged]
  simp only [bind, Except.bind, hrun]
  exact hargs

/-- **Words with a video chain:** the fragments that are built from the commands, joined by commas
behind their option, with other words before and after. Without a fragment there is no chain. -/
structure Chained (commands : List Command) (descriptor : Option Descriptor)
    (duration : Option Double) (before fragments after words : List String) : Prop where
  built : ∃ merged, mergeCrops commands descriptor = .ok merged ∧
    Filter.Builds (.of descriptor duration) 0 merged fragments
  words_eq : words = before ++ chainWords "-vf" fragments ++ after

/-- The words that some commands have before the video chain, and behind it. -/
theorem assemble_chained {commands merged : List Command} {descriptor : Option Descriptor}
    {duration : Option Double} {arguments : List Argument}
    (hmerged : mergeCrops commands descriptor = .ok merged)
    (hrun : (Filter.run (Filter.steps (.of descriptor duration) 0 merged)).outcome = .ok arguments)
    (settings : Settings) (source output : String) :
    ∃ words fragments, assemble (overwriteArgument settings ++ arguments) source output =
        .ok words ∧
      Filter.Builds (.of descriptor duration) 0 merged fragments ∧
      Chained commands descriptor duration
        ((merged.filterMap Command.trim?).flatMap trimWords ++ ["-i", source] ++
          (if settings.overwrite then ["-y"] else []))
        fragments
        ((merged.filterMap Command.format?).flatMap formatWords ++
          (merged.filterMap Command.stream?).flatMap codecWords ++ [output]) words := by
  obtain ⟨ts, hts, hwords⟩ := assemble_built (Filter.run_steps hrun) settings source output
  refine ⟨_, ts, hwords, hts, ⟨merged, hmerged, hts⟩, ?_⟩
  rw [chainWords, hts.isEmpty_eq]
  cases merged.any Command.isPicture
  all_goals simp only [Bool.not_true, Bool.not_false, Bool.false_eq_true, if_true, if_false,
    List.append_assoc, List.append_nil]

/-- **Texts cannot change the filter graph.** The commands of a script, and others that are the same
but for texts and file names, either fail with the same fault, or have the same words but for the
video chain. The chain has as many fragments and the same marks for both, and its scan is outside
quotes behind every fragment. -/
theorem texts_keep_marks {style : CommentStyle} {text : String} {s : Script Command}
    (hs : parse style text = .ok s) {others : List Command}
    (hsame : List.Forall₂ Command.SameButTexts s.commands others)
    (descriptor : Option Descriptor) (duration : Option Double) (settings : Settings)
    (source output : String) :
    Agree (fun words words' => ∃ before fragments fragments' after,
        Chained s.commands descriptor duration before fragments after words ∧
        Chained others descriptor duration before fragments' after words' ∧
        fragments.length = fragments'.length ∧
        Filter.marks (String.intercalate "," fragments) =
          Filter.marks (String.intercalate "," fragments') ∧
        ∀ front, front <+: fragments ∨ front <+: fragments' →
          Filter.Closed (String.intercalate "," front))
      (commandWords s.commands descriptor duration settings source output)
      (commandWords others descriptor duration settings source output) := by
  refine .bind (mergeCrops_agrees hsame descriptor) fun merged merged' hm hm' hmerged => ?_
  have ha := aligned_of_mergeCrops (aligned_of_parse hs) hm
  refine .bind (Filter.run_agrees _ 0 hmerged ha) fun arguments arguments' hr hr' _ => ?_
  obtain ⟨words, ts, hwords, hts, hchain⟩ := assemble_chained hm hr settings source output
  obtain ⟨words', ts', hwords', hts', hchain'⟩ := assemble_chained hm' hr' settings source output
  rw [hwords, hwords']
  -- trims, formats and codecs have no texts that differ
  have hpick : ∀ {β : Type} {f : Command → Option β}, (∀ c, c.isPicture = true → f c = none) →
      merged'.filterMap f = merged.filterMap f := by
    intro β f hf
    refine (filterMap_eq_of_sameButTexts (fun c c' hc => ?_) hmerged).symm
    exact hc.congr (fun _ _ _ _ _ => by rw [hf _ rfl, hf _ rfl])
      fun _ _ _ _ => by rw [hf _ rfl, hf _ rfl]
  have hplain : ∀ c : Command, c.isPicture = true →
      c.trim? = none ∧ c.format? = none ∧ c.stream? = none := by
    intro c hc
    cases c
    case trim => cases hc
    case convert => cases hc
    case compress => cases hc
    all_goals exact ⟨rfl, rfl, rfl⟩
  rw [hpick fun c hc => (hplain c hc).1, hpick fun c hc => (hplain c hc).2.1,
    hpick fun c hc => (hplain c hc).2.2] at hchain'
  have halike := hts.alike hts' hmerged ha
  obtain ⟨hclosed, hclosed'⟩ := Filter.closed_of_alike halike
  refine .ok ⟨_, ts, ts', _, hchain, hchain', halike.length_eq,
    (Filter.Alike.intercalate halike).marks_eq, ?_⟩
  intro front hfront
  apply Filter.closed_intercalate
  intro t ht
  rcases hfront with hfront | hfront
  · exact hclosed t (hfront.subset ht)
  · exact hclosed' t (hfront.subset ht)

/-- A script with a text and two file names. -/
def modestTexts : String :=
  "add_text \"Hi\" at center\nburn subtitles \"a.srt\" at top\nburn image \"l.png\" at left"

/-- The same script with texts that look like parts of a filter graph. -/
def hostileTexts : String :=
  "add_text \"'[x],y=z:\\\" at center\nburn subtitles \"a'b:c.srt\" at top\n" ++
    "burn image \"',null[o].png\" at left"

theorem texts_keep_marks_hostile :
    ∃ s s' words words', parse .bare modestTexts = .ok s ∧ parse .bare hostileTexts = .ok s' ∧
      List.Forall₂ Command.SameButTexts s.commands s'.commands ∧
      commandWords s.commands none none {} "a.mp4" "b.mp4" = .ok words ∧
      commandWords s'.commands none none {} "a.mp4" "b.mp4" = .ok words' ∧ words ≠ words' ∧
      ∃ before fragments fragments' after,
        Chained s.commands none none before fragments after words ∧
        Chained s'.commands none none before fragments' after words' ∧
        Filter.marks (String.intercalate "," fragments) =
          Filter.marks (String.intercalate "," fragments') := by
  have hcommands : (parse .bare modestTexts).toOption.map Script.commands = some [
      .caption "\"Hi\"" (.known .center) (.known .left) 0,
      .burn (.known .subtitles) "\"a.srt\"" (.known .top),
      .burn (.known .image) "\"l.png\"" (.known .left)] := by
    decide +kernel
  have hcommands' : (parse .bare hostileTexts).toOption.map Script.commands = some [
      .caption "\"'[x],y=z:\\\"" (.known .center) (.known .left) 0,
      .burn (.known .subtitles) "\"a'b:c.srt\"" (.known .top),
      .burn (.known .image) "\"',null[o].png\"" (.known .left)] := by
    decide +kernel
  rcases hs : parse .bare modestTexts with f | s
  · rw [hs] at hcommands
    cases hcommands
  rcases hs' : parse .bare hostileTexts with f | s'
  · rw [hs'] at hcommands'
    cases hcommands'
  rw [hs] at hcommands
  rw [hs'] at hcommands'
  have hc := Option.some.inj hcommands
  have hc' := Option.some.inj hcommands'
  have hsame : List.Forall₂ Command.SameButTexts s.commands s'.commands := by
    rw [show s.commands = _ from hc, show s'.commands = _ from hc']
    exact .cons (.caption ..) (.cons (.burn ..) (.cons (.burn ..) .nil))
  have hagree := texts_keep_marks hs hsame none none {} "a.mp4" "b.mp4"
  have hwords : commandWords s.commands none none {} "a.mp4" "b.mp4" = .ok ["-i", "a.mp4", "-vf",
      "drawtext=text='Hi':fontsize=24:fontcolor=white:x=(w-text_w)/2:y=(h-text_h)/2," ++
        "subtitles=a.srt:force_style='Alignment=8'," ++
        "null[base0];movie=l.png[ovl0];[base0][ovl0]overlay=10:(H-h)/2", "b.mp4"] := by
    rw [show s.commands = _ from hc]
    decide +kernel
  have hwords' : commandWords s'.commands none none {} "a.mp4" "b.mp4" = .ok ["-i", "a.mp4", "-vf",
      "drawtext=text=''\\''[x],y=z:\\\\':fontsize=24:fontcolor=white:x=(w-text_w)/2:y=" ++
        "(h-text_h)/2,subtitles='a'\\''b:c.srt':force_style='Alignment=8'," ++
        "null[base0];movie=''\\'',null[o].png'[ovl0];[base0][ovl0]overlay=10:(H-h)/2",
      "b.mp4"] := by
    rw [show s'.commands = _ from hc']
    decide +kernel
  refine ⟨s, s', _, _, rfl, rfl, hsame, hwords, hwords', by decide, ?_⟩
  rw [hwords, hwords'] at hagree
  obtain ⟨before, ts, ts', after, hchain, hchain', -, hmarks, -⟩ := hagree.related
  exact ⟨before, ts, ts', after, hchain, hchain', hmarks⟩

end ClipScript
