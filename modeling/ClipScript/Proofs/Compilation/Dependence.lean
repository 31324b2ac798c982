/-
# What compiling depends on

Of the media facts only three things count: the frame, which crops have to leave something
of, the length, which the end of the output depends on, and the file name, which is one
of the names that the file to read is chosen from. Of the settings the names count as
far as they are given, and whether a file is replaced. Compiling with others that are
the same in this (`CompilesAlike`) comes to the same, log included
(`compileLogged_congr`).
-/
import ClipScript.Compilation

set_option autoImplicit false

namespace ClipScript

/-- The file name among the media facts. -/
def Descriptor.name (descriptor : Option Descriptor) : Json :=
  (descriptor.map Descriptor.filename).getD .null

/-- **The same for compiling:** media facts and settings that no script can tell from others. -/
structure CompilesAlike (descriptor descriptor' : Option Descriptor)
    (settings settings' : Settings) : Prop where
  frame : descriptor.bind Descriptor.frame? = descriptor'.bind Descriptor.frame?
  length : descriptor.bind Descriptor.duration = descriptor'.bind Descriptor.duration
  source : [settings.input, Descriptor.name descriptor].find? Json.isGiven =
    [settings'.input, Descriptor.name descriptor'].find? Json.isGiven
  output : [settings.output].find? Json.isGiven = [settings'.output].find? Json.isGiven
  overwrite : settings.overwrite = settings'.overwrite

variable {descriptor descriptor' : Option Descriptor} {settings settings' : Settings}

/-! ## Crops -/

theorem checkBounds_congr (m : Margins)
    (hframe : descriptor.bind Descriptor.frame? = descriptor'.bind Descriptor.frame?) :
    m.checkBounds descriptor = m.checkBounds descriptor' := by
  rw [Margins.checkBounds, hframe, ← Margins.checkBounds]

theorem filter_congr (m : Margins)
    (hframe : descriptor.bind Descriptor.frame? = descriptor'.bind Descriptor.frame?) :
    m.filter descriptor = m.filter descriptor' := by
  rw [Margins.filter, checkBounds_congr m hframe, hframe, ← Margins.filter]

theorem mergeCrops_congr (commands : List Command)
    (hframe : descriptor.bind Descriptor.frame? = descriptor'.bind Descriptor.frame?) :
    mergeCrops commands descriptor = mergeCrops commands descriptor' := by
  simp only [mergeCrops, checkBounds_congr _ hframe]

/-! ## Arguments -/

namespace Filter

variable {ctx ctx' : Context}

/-- **Building a command** needs the frame and the length of the output. -/
theorem build_congr
    (hframe : ctx.descriptor.bind Descriptor.frame? = ctx'.descriptor.bind Descriptor.frame?)
    (hlength : ctx.duration = ctx'.duration) (n : Nat) (c : Command) :
    build ctx n c = build ctx' n c := by
  cases c with
  | crop size side =>
    rw [build, build, cropText, cropText, filter_congr _ hframe]
  | mergedCrop m detect =>
    rw [build, build, mergedCropText, mergedCropText, filter_congr _ hframe]
  | fade direction duration => rw [build, build, hlength]
  | _ => rfl

theorem steps_congr
    (hframe : ctx.descriptor.bind Descriptor.frame? = ctx'.descriptor.bind Descriptor.frame?)
    (hlength : ctx.duration = ctx'.duration) (n : Nat) (cs : List Command) :
    steps ctx n cs = steps ctx' n cs := by
  induction cs generalizing n with
  | nil => rfl
  | cons c cs ih => rw [steps, steps, build_congr hframe hlength n c, ih]

end Filter

/-! ## Scripts -/

namespace CompilesAlike

theorem sourceName_eq (h : CompilesAlike descriptor descriptor' settings settings')
    (draft : Draft) :
    sourceName draft settings descriptor = sourceName draft settings' descriptor' := by
  show firstGiven _ ([_] ++ [settings.input, Descriptor.name descriptor]) =
    firstGiven _ ([_] ++ [settings'.input, Descriptor.name descriptor'])
  rw [firstGiven, firstGiven, List.find?_append, List.find?_append, h.source]

theorem outputName_eq (h : CompilesAlike descriptor descriptor' settings settings')
    (commands : List Command) (source : Json) :
    outputName commands settings source = outputName commands settings' source := by
  have houtput := h.output
  rw [outputName, outputName]
  rcases hgiven : settings.output.isGiven <;> rcases hgiven' : settings'.output.isGiven
  all_goals simp [hgiven, hgiven'] at houtput ⊢
  exact houtput

theorem buildScript_eq (h : CompilesAlike descriptor descriptor' settings settings')
    (draft : Draft) (merged : List Command) :
    buildScript draft merged descriptor = buildScript draft merged descriptor' := by
  have hlength : outputDuration draft.commands descriptor =
      outputDuration draft.commands descriptor' := by
    rw [outputDuration, h.length, ← outputDuration]
  have hsteps : ∀ duration, Filter.steps (.of descriptor duration) 0 merged =
      Filter.steps (.of descriptor' duration) 0 merged := by
    refine fun duration => Filter.steps_congr h.frame ?_ 0 merged
    rw [Filter.Context.of, Filter.Context.of, h.length]
  simp only [buildScript, hlength, hsteps]

theorem finish_eq (h : CompilesAlike descriptor descriptor' settings settings') (draft : Draft)
    (source output : String) (run : Filter.Run) :
    draft.finish settings source output run = draft.finish settings' source output run := by
  rw [Draft.finish, overwriteArgument, h.overwrite, ← overwriteArgument, ← Draft.finish]

end CompilesAlike

/-- **Compiling comes to the same** with what is the same for it. -/
theorem compileLogged_congr (h : CompilesAlike descriptor descriptor' settings settings')
    (text : String) :
    compileLogged text descriptor settings = compileLogged text descriptor' settings' := by
  have hdraft : ∀ draft : Draft, draft.compile descriptor settings =
      draft.compile descriptor' settings' := by
    intro draft
    simp only [Draft.compile, h.sourceName_eq, h.outputName_eq, mergeCrops_congr _ h.frame,
      h.buildScript_eq, h.finish_eq]
  simp only [compileLogged, hdraft]

end ClipScript
