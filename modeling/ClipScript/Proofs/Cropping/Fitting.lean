/-
# Which crops fit the frame

A crop is written with the numbers of the media file. Several crops are merged into one in
front of all other commands, where the frame still has the size of the file, so the merged
crop fits by its bounds. A single crop stays where it is written. If a scale before it has
made the frame smaller than the file, it may reach beyond the frame: this happens exactly if
the right or the bottom edge that it keeps lies outside (`Outgrown`).

So the chain of a script leads from frame to frame without a crop that reaches beyond,
exactly if its crop is not outgrown (`chain_fits_iff`).
-/
import ClipScript.Proofs.Cropping.Frames

set_option autoImplicit false

namespace ClipScript

variable {cs : List Command} {c : Command} {r frame : Region} {width height : Int}

/-! ## Frames without crops -/

/-- The size of a scale. -/
def Command.scale? : Command → Option (Int × Int)
  | scale width height _ => some (width, height)
  | _ => none

/-- Whether a command takes pixels from the edges of the frame. -/
def Command.isCrop : Command → Bool
  | crop .. | mergedCrop .. => true
  | _ => false

namespace Region

/-- The frame after commands that do not crop: as the last scale has made it. -/
def rescaled (r : Region) (cs : List Command) : Region :=
  match (cs.filterMap Command.scale?).getLast? with
  | some (width, height) => ⟨0, 0, width, height⟩
  | none => r

/-- **Commands that do not crop** never go wrong. -/
theorem foldlM_reframed?_of_not_isCrop (h : ∀ c ∈ cs, c.isCrop = false) :
    cs.foldlM (reframed? frame) r = some (r.rescaled cs) := by
  induction cs generalizing r with
  | nil => rfl
  | cons c cs ih =>
    have hcs : ∀ d ∈ cs, d.isCrop = false := fun d hd => h d (List.mem_cons_of_mem _ hd)
    have hc := h c List.mem_cons_self
    rw [List.foldlM_cons]
    cases c
    case scale width height aspect =>
      -- a later scale counts instead of this one
      have hlast : rescaled ⟨0, 0, width, height⟩ cs =
          r.rescaled (.scale width height aspect :: cs) := by
        rw [rescaled, rescaled, show (Command.scale width height aspect :: cs).filterMap
          Command.scale? = (width, height) :: cs.filterMap Command.scale? from rfl,
          List.getLast?_cons]
        rcases (cs.filterMap Command.scale?).getLast? with _ | x
        · rfl
        · rfl
      rw [← hlast]
      exact ih hcs
    case crop => cases hc
    case mergedCrop => cases hc
    all_goals exact ih hcs

end Region

section OneCommand

variable {before after : List Command}

/-- What stands before a crop has no crop in it. -/
theorem takeWhile_before_crop (hbefore : ∀ c ∈ before, c.isCrop = false) (size : Int)
    (side : Word Side) (after : List Command) :
    ((before ++ .crop size side :: after).takeWhile fun c => c.crop?.isNone) = before := by
  rw [List.takeWhile_append_of_pos, List.takeWhile_cons_of_neg (by simp [Command.crop?]),
    List.append_nil]
  intro c hc
  have hno := hbefore c hc
  cases c
  case crop => cases hno
  all_goals rfl

/-- Among commands that do not crop, one other command decides. -/
theorem Region.isSome_foldlM_around (hbefore : ∀ c ∈ before, c.isCrop = false)
    (hafter : ∀ c ∈ after, c.isCrop = false) (c : Command) :
    ((before ++ c :: after).foldlM (reframed? frame) r).isSome =
      (reframed? frame (r.rescaled before) c).isSome := by
  rw [List.foldlM_append, foldlM_reframed?_of_not_isCrop hbefore]
  simp only [Option.bind_eq_bind, Option.bind_some, List.foldlM_cons]
  rcases reframed? frame (r.rescaled before) c with _ | r'
  · rfl
  · simp only [Option.bind_some, foldlM_reframed?_of_not_isCrop hafter, Option.isSome_some]

end OneCommand

/-! ## Crops that are outgrown -/

/-- **A crop that is outgrown:** the only one of some commands takes pixels, and the last scale
before it leaves less of the frame than is kept of the width and the height that it was written
for. -/
def Outgrown (width height : Int) (cs : List Command) : Prop :=
  ∃ size side w h, crops cs = [(size, side)] ∧ size ≠ 0 ∧
    ((cs.takeWhile fun c => c.crop?.isNone).filterMap Command.scale?).getLast? = some (w, h) ∧
    (w < width - (Margins.ofCrop size side).right ∨ h < height - (Margins.ofCrop size side).bottom)

namespace Region

/-- A crop that is written for a frame fits another one exactly if that reaches as far as the edges
that are kept. -/
theorem isSome_cut?_iff {m : Margins} (hfits : Fits ⟨0, 0, width, height⟩ m) :
    (cut? ⟨0, 0, width, height⟩ r m).isSome ↔
      width - m.right ≤ r.width ∧ height - m.bottom ≤ r.height := by
  simp only [Fits, Margins.horizontal, Margins.vertical] at hfits
  rw [cut?, keep?]
  split
  · next hkeeps =>
    simp only [Margins.horizontal, Margins.vertical] at hkeeps
    exact ⟨fun _ => by omega, fun _ => rfl⟩
  · next hkeeps =>
    simp only [Margins.horizontal, Margins.vertical] at hkeeps
    exact ⟨by rintro ⟨⟩, fun _ => by omega⟩

/-- **One crop** among commands fits, unless it is outgrown. -/
theorem isSome_foldlM_of_crop {before after : List Command} {size : Int} {side : Word Side}
    (hbefore : ∀ c ∈ before, c.isCrop = false) (hafter : ∀ c ∈ after, c.isCrop = false)
    (hcrops : crops (before ++ .crop size side :: after) = [(size, side)]) (hsize : 0 ≤ size)
    (hfits : size ≠ 0 → Fits ⟨0, 0, width, height⟩ (.ofCrop size side)) :
    ((before ++ .crop size side :: after).foldlM (reframed? ⟨0, 0, width, height⟩)
      ⟨0, 0, width, height⟩).isSome ↔
        ¬ Outgrown width height (before ++ .crop size side :: after) := by
  have hnonneg := Margins.nonneg_ofCrop hsize side
  have hfront := takeWhile_before_crop hbefore size side after
  rw [isSome_foldlM_around hbefore hafter, reframed?]
  by_cases hzero : size = 0
  · rw [if_pos hzero]
    refine ⟨fun _ => ?_, fun _ => rfl⟩
    rintro ⟨size', side', w, h, hcrops', hne, -⟩
    rw [hcrops] at hcrops'
    simp only [List.cons.injEq, Prod.mk.injEq] at hcrops'
    exact hne (hcrops'.1.1 ▸ hzero)
  · rw [if_neg hzero, isSome_cut?_iff (hfits hzero), rescaled]
    constructor
    · rintro hreach ⟨size', side', w, h, hcrops', -, hlast, hbeyond⟩
      rw [hcrops] at hcrops'
      simp only [List.cons.injEq, Prod.mk.injEq, and_true] at hcrops'
      obtain ⟨rfl, rfl⟩ := hcrops'
      rw [hfront] at hlast
      rw [hlast] at hreach
      simp only at hreach
      omega
    · intro hnot
      rcases hlast : (before.filterMap Command.scale?).getLast? with _ | ⟨w, h⟩
      · obtain ⟨-, hright, -, hbottom⟩ := hnonneg
        simp only
        omega
      · by_contra hbeyond
        refine hnot ⟨size, side, w, h, hcrops, hzero, by rw [hfront, hlast], ?_⟩
        simp only at hbeyond
        omega

/-- **A merged crop** in front of commands that do not crop fits by its bounds. -/
theorem isSome_foldlM_of_mergedCrop {m : Margins} (detect : Bool) (hm : m.Nonneg)
    (hfits : Fits ⟨0, 0, width, height⟩ m) (hcs : ∀ c ∈ cs, c.isCrop = false) :
    ((.mergedCrop m detect :: cs).foldlM (reframed? ⟨0, 0, width, height⟩)
      ⟨0, 0, width, height⟩).isSome := by
  have hfirst : ∃ r, reframed? ⟨0, 0, width, height⟩ ⟨0, 0, width, height⟩
      (.mergedCrop m detect) = some r := by
    rw [reframed?]
    split
    · exact ⟨_, rfl⟩
    · rw [← Option.isSome_iff_exists, isSome_cut?_iff hfits]
      obtain ⟨-, hright, -, hbottom⟩ := hm
      simp only
      omega
  obtain ⟨r, hr⟩ := hfirst
  rw [List.foldlM_cons, hr]
  simp only [Option.bind_eq_bind, Option.bind_some, foldlM_reframed?_of_not_isCrop hcs,
    Option.isSome_some]

end Region

/-- In a script, a command that is no crop is no merged crop either. -/
theorem Command.Plain.isCrop_eq (h : c.Plain) (hc : c.crop? = none) : c.isCrop = false := by
  cases c
  case crop => cases hc
  case mergedCrop => exact h.elim
  all_goals rfl

/-- In a script, no crop takes less than nothing. -/
theorem nonneg_of_mem_crops (hplain : ∀ c ∈ cs, c.Plain) : ∀ x ∈ crops cs, 0 ≤ x.1 := by
  intro x hx
  obtain ⟨c, hc, hx⟩ := List.mem_filterMap.1 hx
  have hc := hplain c hc
  cases c
  case crop =>
    obtain rfl := Option.some.inj hx
    exact hc.1
  all_goals cases hx

theorem eq_of_crop? {x : Int × Word Side} (h : c.crop? = some x) : c = .crop x.1 x.2 := by
  cases c
  case crop =>
    obtain rfl := Option.some.inj h
    rfl
  all_goals cases h

/-- **The commands of a script,** once their crops are merged, lead from frame to frame, unless
their crop is outgrown. -/
theorem isSome_foldlM_iff {d : Option Descriptor} {merged : List Command}
    (hd : d.bind Descriptor.frame? = some (width, height)) (hplain : ∀ c ∈ cs, c.Plain)
    (h : mergeCrops cs d = .ok merged)
    (hfits : ∀ size side, Command.crop size side ∈ merged → size ≠ 0 →
      Region.Fits ⟨0, 0, width, height⟩ (.ofCrop size side)) :
    (merged.foldlM (Region.reframed? ⟨0, 0, width, height⟩) ⟨0, 0, width, height⟩).isSome ↔
      ¬ Outgrown width height cs := by
  have hother : ∀ c ∈ cs, c.crop? = none → c.isCrop = false := fun c hc => (hplain c hc).isCrop_eq
  rcases mergeCrops_cases cs d with ⟨hfew, hmerged⟩ | ⟨hmany, ⟨f, -, hfailed⟩ |
    ⟨detect, hbounds, hmerged⟩⟩
  · obtain rfl := Except.ok.inj (hmerged.symm.trans h)
    rcases hcrops : crops cs with _ | ⟨⟨size, side⟩, _ | ⟨_, _⟩⟩
    · have hnone : ∀ c ∈ cs, c.isCrop = false := fun c hc =>
        hother c hc (List.filterMap_eq_nil_iff.1 hcrops c hc)
      rw [Region.foldlM_reframed?_of_not_isCrop hnone]
      refine ⟨fun _ => ?_, fun _ => rfl⟩
      rintro ⟨size, side, w, h, hone, -⟩
      cases hcrops.symm.trans hone
    · obtain ⟨before, c, after, rfl, hbefore, hc, hafter⟩ := List.filterMap_eq_cons_iff.1 hcrops
      obtain rfl := eq_of_crop? hc
      have hmem : Command.crop size side ∈ before ++ .crop size side :: after :=
        List.mem_append_right _ List.mem_cons_self
      refine Region.isSome_foldlM_of_crop ?_ ?_ hcrops (hplain _ hmem).1 (hfits size side hmem)
      · exact fun c hc => hother c (List.mem_append_left _ hc) (hbefore c hc)
      · exact fun c hc => hother c (List.mem_append_right _ (List.mem_cons_of_mem _ hc))
          (List.filterMap_eq_nil_iff.1 hafter c hc)
    · rw [hcrops, List.length_cons, List.length_cons] at hfew
      omega
  · cases hfailed.symm.trans h
  · obtain rfl := Except.ok.inj (hmerged.symm.trans h)
    have hbounds := (Region.checkBounds_ok_iff (r := ⟨0, 0, width, height⟩) hd).1 hbounds
    have hrest : ∀ c ∈ cs.filter (fun c => c.crop?.isNone), c.isCrop = false := by
      intro c hc
      obtain ⟨hmem, hnone⟩ := List.mem_filter.1 hc
      exact hother c hmem (Option.isNone_iff_eq_none.1 hnone)
    refine ⟨fun _ => ?_, fun _ => Region.isSome_foldlM_of_mergedCrop detect
      (nonneg_total (nonneg_of_mem_crops hplain)) hbounds hrest⟩
    rintro ⟨size, side, w, h, hone, -⟩
    rw [hone, List.length_singleton] at hmany
    omega

/-! ## Scripts -/

/-- A command whose size, if it is a scale, is positive. -/
def Command.PositiveScale : Command → Prop
  | .scale width height _ => 0 < width ∧ 0 < height
  | _ => True

/-- **A directive becomes a scale to a positive size,** since any other size is refused. -/
theorem Command.FromDirective.positiveScale {c : Command} (h : c.FromDirective) :
    c.PositiveScale := by
  cases h with
  | scale aspect positive => exact positive
  | _ => trivial

/-- A command whose filter is built is built by itself. -/
theorem Filter.Builds.exists_built {ctx : Filter.Context} {n : Nat} {ts : List String}
    (h : Filter.Builds ctx n cs ts) (hc : c ∈ cs) (hpicture : c.isPicture = true) :
    ∃ m t, (Filter.build ctx m c).outcome = .ok (some (.fragment t)) := by
  induction h with
  | nil => cases hc
  | picture _ hbuilt _ ih =>
    rcases List.mem_cons.1 hc with rfl | hc
    · exact ⟨_, _, hbuilt⟩
    · exact ih hc
  | other hother _ ih =>
    rcases List.mem_cons.1 hc with rfl | hc
    · rw [hother] at hpicture
      cases hpicture
    · exact ih hc

/-- A crop whose filter is built fits the frame that it is written for. -/
theorem Filter.Builds.fits_of_crop {ctx : Filter.Context} {n : Nat} {ts : List String}
    (hd : ctx.descriptor.bind Descriptor.frame? = some (frame.width, frame.height))
    (h : Filter.Builds ctx n cs ts) {size : Int} {side : Word Side} (hsize : 0 ≤ size)
    (hc : .crop size side ∈ cs) (hne : size ≠ 0) : frame.Fits (.ofCrop size side) := by
  obtain ⟨m, t, hbuilt⟩ := h.exists_built hc rfl
  have ht := Filter.eq_of_fragmentOf hbuilt
  rw [Filter.cropText, if_neg hne, Region.total_singleton] at ht
  exact (Region.walk?_filter (r := frame) (Margins.nonneg_ofCrop hsize side) hd ht).1

variable {text : String} {d : Descriptor} {settings : Settings} {compiled : Compilation}

/-- **Every crop of a chain fits** the frame that it is applied to, exactly if the crop of the
script is not outgrown. The frame starts with the size of the file, scales that ignore the aspect
ratio set it, and crops have to keep a part of it. -/
theorem chain_fits_iff (h : compile text (some d) settings = .ok compiled)
    (hwidth : d.width = some width) (hheight : d.height = some height) (hw : 0 < width)
    (hh : 0 < height) (hscales : ∀ w h aspect, Command.scale w h aspect ∈ compiled.commands →
      aspect = .known .ignore) :
    ∃ l : CommandLine, l.Fits compiled.commands (some d) settings ∧
      compiled.args = l.args compiled.commands settings.overwrite ∧
      ((∃ r, Region.walk? ⟨0, 0, width, height⟩ (String.intercalate "," l.fragments) = some r) ↔
        ¬ Outgrown width height compiled.commands) := by
  obtain ⟨s, -, hdraft⟩ := compile_ok h
  obtain ⟨l, hfits, hargs⟩ := exists_commandLine hdraft
  refine ⟨l, hfits, hargs, ?_⟩
  have hframe : (some d).bind Descriptor.frame? = some (width, height) := by
    show d.frame? = _
    simp only [Descriptor.frame?, hwidth, hheight]
    rw [if_neg (by omega)]
  -- what is known of the commands of every script
  have hplain : ∀ c ∈ compiled.commands, c.Plain :=
    forall_command_of_compile (fun _ => trivial) (fun _ hd => hd.plain) h
  have hpositive : ∀ c ∈ compiled.commands, c.PositiveScale :=
    forall_command_of_compile (fun _ => trivial) (fun _ hd => hd.positiveScale) h
  have haligned := aligned_of_mergeCrops (aligned_of_compile h) hfits.merged
  have hliteral : ∀ c ∈ l.merged, c.Literal := by
    intro c hc
    rcases mem_mergeCrops hfits.merged hc with ⟨hmem, -⟩ | ⟨detect, rfl⟩
    · have hkind := hplain c hmem
      cases c
      case scale w h aspect =>
        obtain ⟨hw, hh⟩ := hpositive _ hmem
        exact ⟨by omega, by omega, hscales w h aspect hmem⟩
      case crop => exact hkind.1
      case mergedCrop => exact hkind.elim
      all_goals trivial
    · exact nonneg_total (nonneg_of_mem_crops hplain)
  have hchain : Region.walk? ⟨0, 0, width, height⟩ (String.intercalate "," l.fragments) =
      l.merged.foldlM (Region.reframed? ⟨0, 0, width, height⟩) ⟨0, 0, width, height⟩ :=
    Region.walk?_builds hframe hfits.fragments haligned hliteral
  have hcrops : ∀ size side, Command.crop size side ∈ l.merged → size ≠ 0 →
      Region.Fits ⟨0, 0, width, height⟩ (.ofCrop size side) := fun _ _ hmem =>
    Filter.Builds.fits_of_crop hframe hfits.fragments (hliteral _ hmem) hmem
  rw [hchain, ← Option.isSome_iff_exists]
  exact isSome_foldlM_iff hframe hplain hfits.merged hcrops

/-- A file in full high definition. -/
def largeFile : Descriptor := { width := some 1920, height := some 1080 }

/-- A crop behind a scale that leaves enough for it, and a text that looks like another crop. -/
def roomyScript : String :=
  "scale to 1600x900 ignore aspect ratio\nadd_text \"a,crop=1:1:0:0\" at center\n" ++
    "crop 400px from each"

theorem chain_fits_roomyScript :
    ∃ c, compile roomyScript (some largeFile) {} = .ok c ∧
      ∃ l : CommandLine, l.Fits c.commands (some largeFile) {} ∧ c.args = l.args c.commands false ∧
        ∃ r, Region.walk? ⟨0, 0, 1920, 1080⟩ (String.intercalate "," l.fragments) = some r := by
  have hcommands : (compile roomyScript (some largeFile) {}).toOption.map Compilation.commands =
      some [.scale 1600 900 (.known .ignore),
        .caption "\"a,crop=1:1:0:0\"" (.known .center) (.known .left) 0,
        .crop 400 (.known .each)] := by
    decide +kernel
  rcases hc : compile roomyScript (some largeFile) {} with f | c
  · rw [hc] at hcommands
    cases hcommands
  rw [hc] at hcommands
  have hc' := Option.some.inj hcommands
  obtain ⟨l, hfits, hargs, hiff⟩ := chain_fits_iff hc rfl rfl (by decide) (by decide) (by
    rw [show c.commands = _ from hc']
    simp)
  refine ⟨c, rfl, l, hfits, hargs, hiff.2 ?_⟩
  rw [show c.commands = _ from hc']
  rintro ⟨size, side, w, h, hcrops, -, hlast, hbeyond⟩
  have hcrop : [(400, .known .each)] = [(size, side)] := hcrops
  have hscale : some (1600, 900) = some (w, h) := hlast
  cases hcrop
  cases hscale
  exact absurd hbeyond (by decide)

/-- A crop behind a scale that leaves too little for it. -/
def outgrownScript : String := "scale to 640x360 ignore aspect ratio\ncrop 10px from left"

/-- **Not every crop fits:** the frame is 640 wide when 1910 of it are to be kept. -/
theorem chain_does_not_fit :
    ∃ c, compile outgrownScript (some largeFile) {} = .ok c ∧
      c.commands = [.scale 640 360 (.known .ignore), .crop 10 (.known .left)] ∧
      c.args = ["-i", "input.mp4", "-vf", "scale=640:360,crop=1910:1080:10:0", "output.mp4"] ∧
      Region.walk? ⟨0, 0, 1920, 1080⟩ "scale=640:360,crop=1910:1080:10:0" = none := by
  have hresult : (compile outgrownScript (some largeFile) {}).toOption.map (fun c =>
      (c.commands, c.args)) = some ([.scale 640 360 (.known .ignore), .crop 10 (.known .left)],
        ["-i", "input.mp4", "-vf", "scale=640:360,crop=1910:1080:10:0", "output.mp4"]) := by
    decide +kernel
  rcases hc : compile outgrownScript (some largeFile) {} with f | c
  · rw [hc] at hresult
    cases hresult
  · rw [hc] at hresult
    have hboth := Option.some.inj hresult
    exact ⟨c, rfl, congrArg Prod.fst hboth, congrArg Prod.snd hboth, by decide +kernel⟩

end ClipScript
