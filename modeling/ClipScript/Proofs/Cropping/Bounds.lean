/-
# Crops that do not fit

The bounds of crops are checked in two places. Two or more crops are checked when they
are merged, and the merged crop is not found wanting again when it is built; a single
crop is checked when it is built, unless it takes no pixels. Either way it is the sum of
all crops of the script that counts (`Draft.Stops.cases`, `stops_of_checkBounds`).

So a script with finite fades fails for its crops exactly if these leave nothing of the
width or of the height, wherever they stand among the other commands
(`compile_cropBounds_iff`).
-/
import ClipScript.Proofs.Compilation.Failures

set_option autoImplicit false

namespace ClipScript

open Number

variable {commands : List Command} {descriptor : Option Descriptor} {settings : Settings}
  {m : Margins} {width height : Int} {f : Fault}

/-! ## Bounds -/

/-- A fault of the limit on digits, in reading or in writing. -/
def Fault.isDigitLimit : Fault → Bool
  | .tooManyDigits _ | .numeralTooLong => true
  | _ => false

theorem Fault.isCropBounds_of_isDigitLimit {f : Fault} (h : f.isDigitLimit = true) :
    f.isCropBounds = false := by
  cases f
  case tooManyDigits => rfl
  case numeralTooLong => rfl
  all_goals cases h

theorem Fault.isCropBounds_of_isEndless {f : Fault} (h : f.isEndless = true) :
    f.isCropBounds = false := by
  cases f
  case infiniteInteger => rfl
  case undefinedInteger => rfl
  all_goals cases h

/-- **Margins that leave nothing** of the width, or of the height. -/
def Margins.Exceeds (m : Margins) (width height : Int) : Prop :=
  width ≤ m.horizontal ∨ height ≤ m.vertical

/-- Writing some numbers fails only for one that is too long. -/
theorem mapM_writeInt_failsOnly (numbers : List Int) :
    FailsOnly (· = .numeralTooLong) (numbers.mapM writeInt) := by
  induction numbers with
  | nil => exact .ok
  | cons n ns ih =>
    rw [List.mapM_cons]
    exact .bind (writeInt_failsOnly n) fun _ _ => .bind ih fun _ _ => .ok

theorem faultWith_cases (numbers : List Int) (fault : Fault) :
    faultWith numbers fault = fault ∨ faultWith numbers fault = .numeralTooLong := by
  rw [faultWith]
  split
  · exact .inl rfl
  · next g hg => exact .inr (mapM_writeInt_failsOnly numbers g hg)

/-- **Bounds are broken** exactly if nothing is left of a frame that is known. -/
theorem exists_checkBounds_error :
    (∃ f, m.checkBounds descriptor = .error f) ↔
      ∃ width height, descriptor.bind Descriptor.frame? = some (width, height) ∧
        m.Exceeds width height := by
  rw [Margins.checkBounds]
  rcases descriptor.bind Descriptor.frame? with _ | ⟨w, h⟩
  · simp
  · simp only [Option.some.injEq, Prod.mk.injEq, Margins.Exceeds]
    by_cases hw : w ≤ m.horizontal
    · simp [hw]
    · by_cases hh : h ≤ m.vertical
      · simp [hw, hh]
      · simp [hw, hh]

/-- The fault of broken bounds is a crop fault, unless its message cannot be written. -/
theorem checkBounds_failsOnly (m : Margins) (descriptor : Option Descriptor) :
    FailsOnly (fun f => f.isCropBounds = true ∨ f = .numeralTooLong)
      (m.checkBounds descriptor) := by
  rw [Margins.checkBounds]
  split
  · exact .ok
  · split
    · refine .error ((faultWith_cases _ _).imp_left fun h => ?_)
      rw [h]
      rfl
    · split
      · refine .error ((faultWith_cases _ _).imp_left fun h => ?_)
        rw [h]
        rfl
      · exact .ok

/-! ## Merging -/

/-- **Merging, case by case:** fewer than two crops are left alone; others are checked together
and become one. -/
theorem mergeCrops_cases (commands : List Command) (descriptor : Option Descriptor) :
    (crops commands).length < 2 ∧ mergeCrops commands descriptor = .ok commands ∨
    2 ≤ (crops commands).length ∧
      ((∃ f, (Margins.total (crops commands)).checkBounds descriptor = .error f ∧
          mergeCrops commands descriptor = .error f) ∨
        ∃ detect, (Margins.total (crops commands)).checkBounds descriptor = .ok () ∧
          mergeCrops commands descriptor =
            .ok (.mergedCrop (Margins.total (crops commands)) detect ::
              commands.filter fun c => c.crop?.isNone)) := by
  rw [mergeCrops]
  by_cases hlen : (crops commands).length < 2
  · exact .inl ⟨hlen, if_pos hlen⟩
  · refine .inr ⟨by omega, ?_⟩
    rw [if_neg hlen]
    rcases hbounds : (Margins.total (crops commands)).checkBounds descriptor with g | ⟨⟩
    · exact .inl ⟨g, rfl, by simp only [hbounds]; rfl⟩
    · exact .inr ⟨_, rfl, by simp only [hbounds]; rfl⟩

theorem mem_crops {size : Int} {side : Word Side} :
    (size, side) ∈ crops commands ↔ .crop size side ∈ commands := by
  rw [crops, List.mem_filterMap]
  constructor
  · rintro ⟨c, hc, hcrop⟩
    cases c
    case crop =>
      obtain ⟨rfl, rfl⟩ := Prod.mk.inj (Option.some.inj hcrop)
      exact hc
    all_goals cases hcrop
  · exact fun hc => ⟨_, hc, rfl⟩

/-- A crop of no pixels takes nothing. -/
theorem total_zero (side : Word Side) : Margins.total [(0, side)] = .zero := by
  rcases side with (_ | _ | _ | _ | _ | _ | _) | _
  all_goals rfl

/-- **A command after merging** was there before, and then as the only crop if it is one; or it is
the merged crop. -/
theorem mem_mergeCrops {merged : List Command} {c : Command}
    (h : mergeCrops commands descriptor = .ok merged) (hc : c ∈ merged) :
    c ∈ commands ∧ (∀ x, c.crop? = some x → crops commands = [x]) ∨
      ∃ detect, c = .mergedCrop (Margins.total (crops commands)) detect := by
  rcases mergeCrops_cases commands descriptor with
    ⟨hlen, hmerged⟩ | ⟨-, ⟨f, -, hfailed⟩ | ⟨detect, -, hmerged⟩⟩
  · obtain rfl := Except.ok.inj (hmerged.symm.trans h)
    refine .inl ⟨hc, fun x hx => ?_⟩
    have hmem : x ∈ crops commands := List.mem_filterMap.2 ⟨c, hc, hx⟩
    have hpos := List.length_pos_of_mem hmem
    obtain ⟨y, hy⟩ := List.length_eq_one_iff.1 (show (crops commands).length = 1 by omega)
    rw [hy, List.mem_singleton] at hmem
    rw [hy, hmem]
  · cases hfailed.symm.trans h
  · obtain rfl := Except.ok.inj (hmerged.symm.trans h)
    rcases List.mem_cons.1 hc with rfl | hc
    · exact .inr ⟨detect, rfl⟩
    · -- what is left beside it are commands of other kinds
      obtain ⟨hmem, hother⟩ := List.mem_filter.1 hc
      refine .inl ⟨hmem, fun x hx => ?_⟩
      rw [hx] at hother
      cases hother

theorem plain_of_mergeCrops {merged : List Command} (hplain : ∀ c ∈ commands, c.Plain)
    (h : mergeCrops commands descriptor = .ok merged) {c : Command} (hc : c ∈ merged) :
    c.Plain ∨ ∃ m detect, c = .mergedCrop m detect :=
  (mem_mergeCrops h hc).imp (fun h => hplain c h.1) fun h => ⟨_, h⟩

/-- **The margins of a crop** that is left after merging are those of all crops together. -/
theorem margins_of_mergeCrops {merged : List Command} (hplain : ∀ c ∈ commands, c.Plain)
    (h : mergeCrops commands descriptor = .ok merged) {c : Command} (hc : c ∈ merged)
    (hm : Filter.margins? c = some m) : m = Margins.total (crops commands) := by
  rcases mem_mergeCrops h hc with ⟨hmem, hcrop⟩ | ⟨detect, rfl⟩
  · cases c
    case crop size side =>
      rw [Filter.margins?] at hm
      split at hm
      · cases hm
      · rw [hcrop _ rfl]
        exact (Option.some.inj hm).symm
    case mergedCrop => exact absurd (hplain _ hmem) id
    all_goals cases hm
  · rw [Filter.margins?] at hm
    split at hm
    · cases hm
    · exact (Option.some.inj hm).symm

/-! ## What stops a draft -/

/-- **An endless fade:** one whose duration is infinite, or any fade when the length of the media
file is no finite number. -/
def EndlessFade (commands : List Command) (descriptor : Option Descriptor) : Prop :=
  ∃ direction duration, .fade direction duration ∈ commands ∧
    (duration = .infinity false ∨
      ∃ x, descriptor.bind Descriptor.duration = some x ∧ x.inRange = false)

/-- **What can stop a draft of plain commands:** a number that is too long, all its crops together,
or an endless fade. -/
theorem Draft.Stops.cases {draft : Draft} (hplain : ∀ c ∈ draft.commands, c.Plain)
    (h : draft.Stops descriptor f) :
    f = .numeralTooLong ∨
      (Margins.total (crops draft.commands)).checkBounds descriptor = .error f ∨
      f.isEndless = true ∧ EndlessFade draft.commands descriptor := by
  rcases h with hfailed | @⟨merged, duration, hmerged, hduration, hfirst⟩
  · rcases mergeCrops_cases draft.commands descriptor with
      ⟨-, hmerged⟩ | ⟨-, ⟨g, hbounds, hfailed'⟩ | ⟨detect, -, hmerged⟩⟩
    · cases hmerged.symm.trans hfailed
    · obtain rfl := Except.error.inj (hfailed'.symm.trans hfailed)
      exact .inr (.inl hbounds)
    · cases hmerged.symm.trans hfailed
  · obtain ⟨c, hc, hfault⟩ := List.exists_of_findSome?_eq_some hfirst
    rcases Filter.fails_of_fault? (plain_of_mergeCrops hplain hmerged hc) hfault with
      _ | ⟨hm, hbounds⟩ | @⟨direction, x, _, hdurations, hendless⟩
    · exact .inl rfl
    · rw [margins_of_mergeCrops hplain hmerged hc hm] at hbounds
      exact .inr (.inl hbounds)
    · refine .inr (.inr ⟨hendless, direction, x, ?_, hdurations.imp_right ?_⟩)
      · -- merging makes no fades
        rcases mem_mergeCrops hmerged hc with ⟨hmem, -⟩ | ⟨_, heq⟩
        · exact hmem
        · cases heq
      · -- the length of the output is in range if that of the media file is
        rintro ⟨y, hy, hyrange⟩
        by_contra hnone
        have hsource : ∀ z, descriptor.bind Descriptor.duration = some z → z.inRange = true :=
          fun z hz => by simpa using fun hin => hnone ⟨z, hz, hin⟩
        obtain ⟨duration', hduration', hin⟩ := outputDuration_plain descriptor hplain
        obtain rfl : duration = duration' := Except.ok.inj (hduration.symm.trans hduration')
        rw [hin hsource y hy] at hyrange
        cases hyrange

/-- **Crops that leave nothing of a frame** stop a draft. -/
theorem stops_of_exceeds {draft : Draft} (hplain : ∀ c ∈ draft.commands, c.Plain)
    (hframe : descriptor.bind Descriptor.frame? = some (width, height)) (hwidth : 0 < width)
    (hheight : 0 < height)
    (h : (Margins.total (crops draft.commands)).Exceeds width height) :
    ∃ f, draft.Stops descriptor f := by
  obtain ⟨f, hbounds⟩ : ∃ f, (Margins.total (crops draft.commands)).checkBounds descriptor =
      .error f := exists_checkBounds_error.2 ⟨width, height, hframe, h⟩
  have hzero : ¬ Margins.zero.Exceeds width height := by
    rintro (hle | hle)
    · exact absurd hle (not_le.2 hwidth)
    · exact absurd hle (not_le.2 hheight)
  rcases mergeCrops_cases draft.commands descriptor with
    ⟨hlen, hmerged⟩ | ⟨-, ⟨g, -, hfailed⟩ | ⟨detect, hok, -⟩⟩
  · -- one crop, which takes some pixels: it is checked when it is built
    rcases hcrops : crops draft.commands with _ | ⟨⟨size, side⟩, rest⟩
    · rw [hcrops] at h
      exact absurd h hzero
    · obtain rfl : rest = [] := by
        rw [hcrops, List.length_cons] at hlen
        exact List.eq_nil_of_length_eq_zero (by omega)
      have hsize : size ≠ 0 := by
        rintro rfl
        rw [hcrops, total_zero] at h
        exact hzero h
      have hmem : .crop size side ∈ draft.commands := mem_crops.1 (by rw [hcrops]; simp)
      obtain ⟨duration, hduration, -⟩ := outputDuration_plain descriptor hplain
      have hfault : Filter.fault? (.of descriptor duration) (.crop size side) = some f := by
        rw [hcrops] at hbounds
        exact Filter.fault?_of_checkBounds (by rw [Filter.margins?, if_neg hsize]) hbounds
      rcases hfirst : draft.commands.findSome? (Filter.fault? (.of descriptor duration)) with _ | g
      · rw [List.findSome?_eq_none_iff.1 hfirst _ hmem] at hfault
        cases hfault
      · exact ⟨g, .building hmerged hduration hfirst⟩
  · exact ⟨g, .merging hfailed⟩
  · cases hok.symm.trans hbounds

/-! ## Compiling -/

/-- Parsing only fails for a numeral that is too long. -/
theorem parse_failsOnly (style : CommentStyle) (source : String) :
    FailsOnly (fun f => f.isDigitLimit = true) (parse style source) := by
  obtain ⟨segments, j, hcuts, rfl | ⟨n, hn⟩⟩ := exists_cuts (tokenize style source) (Nat.zero_le _)
  · rw [parse_of_cuts hcuts]
    exact .ok
  · rw [parse_of_overruns hcuts hn]
    exact .error rfl

theorem outputName_failsOnly (commands : List Command) (settings : Settings) (source : Json) :
    FailsOnly (· = .wrongKind) (outputName commands settings source) := by
  rw [outputName]
  split
  · exact .ok
  · refine FailsOnly.map ?_
    unfold defaultOutput
    split
    · exact .ok
    · split
      · exact .ok
      · exact .error rfl

theorem nameTexts_failsOnly (source output : Json) :
    FailsOnly (· = .wrongKind) (nameTexts source output) := by
  unfold nameTexts
  split
  · exact .ok
  · exact .error rfl

/-- **Why compiling fails:** a number with too many digits, file names that are no texts, crops that
leave nothing of the frame, or an endless fade. -/
theorem compile_error_cases {text : String} (h : compile text descriptor settings = .error f) :
    f.isDigitLimit = true ∨ f = .wrongKind ∧ ¬ Named descriptor settings ∨
      ∃ s, parse .bare text = .ok s ∧
        ((Margins.total (crops s.commands)).checkBounds descriptor = .error f ∨
          f.isEndless = true ∧ EndlessFade s.commands descriptor) := by
  rcases hparse : parse .bare text with g | s
  · -- what parsing fails with is what compiling does
    rw [compile, compileLogged, hparse] at h
    obtain rfl := Except.error.inj h
    exact .inl (parse_failsOnly _ _ g hparse)
  have hplain := plain_ofScript hparse
  have hstops : (Draft.ofScript s).Stops descriptor f → f.isDigitLimit = true ∨
      ((Margins.total (crops s.commands)).checkBounds descriptor = .error f ∨
        f.isEndless = true ∧ EndlessFade s.commands descriptor) := by
    intro hstops
    rcases hstops.cases hplain with rfl | hbounds | ⟨hendless, direction, x, hfade, hx⟩
    · exact .inl rfl
    · rw [crops_ofScript] at hbounds
      exact .inr (.inl hbounds)
    · exact .inr (.inr ⟨hendless, direction, x, commands_ofScript_subset s _ hfade, hx⟩)
  have hnames : f = .wrongKind → ¬ Named descriptor settings := by
    rintro rfl hnamed
    rw [compile_error_iff hnamed, hparse] at h
    rcases h with hfailed | ⟨s', hs', hstops'⟩
    · cases hfailed
    · obtain rfl := Except.ok.inj hs'
      rcases hstops hstops' with hdigits | hbounds | ⟨hendless, -⟩
      · cases hdigits
      · rcases checkBounds_failsOnly _ _ _ hbounds with hcrop | hlong
        · cases hcrop
        · cases hlong
      · cases hendless
  rw [compile, compileLogged, hparse] at h
  rcases (compile_draft_error_iff hplain).1 h with houtput | ⟨output, -, hstops' | ⟨-, htexts⟩⟩
  · have hkind := outputName_failsOnly _ _ _ f houtput
    exact .inr (.inl ⟨hkind, hnames hkind⟩)
  · exact (hstops hstops').imp_right fun hcause => .inr ⟨s, rfl, hcause⟩
  · have hkind := nameTexts_failsOnly _ _ f htexts
    exact .inr (.inl ⟨hkind, hnames hkind⟩)

/-- A script is parsed, unless compiling it fails for a number with too many digits. -/
theorem exists_parse {text : String} (hnamed : Named descriptor settings)
    (hlimit : ∀ f, compile text descriptor settings = .error f → f.isDigitLimit = false) :
    ∃ s, parse .bare text = .ok s := by
  rcases hparse : parse .bare text with f | s
  · have hdigits := hlimit f ((compile_error_iff hnamed).2 (.inl hparse))
    rw [parse_failsOnly _ _ f hparse] at hdigits
    cases hdigits
  · exact ⟨s, rfl⟩

/-- The check of some margins has a crop fault, unless a number has too many digits. -/
theorem isCropBounds_of_checkBounds {margins : Margins}
    (h : margins.checkBounds descriptor = .error f) (hlimit : f.isDigitLimit = false) :
    f.isCropBounds = true := by
  refine (checkBounds_failsOnly _ _ f h).resolve_right ?_
  rintro rfl
  cases hlimit

/-- The fades among some commands have finite durations. -/
def FiniteFades (commands : List Command) : Prop :=
  ∀ direction duration, .fade direction duration ∈ commands → duration.isFinite = true

/-- **Crops fail exactly if they leave nothing of the frame,** all of the script together; where the
frame is not known they never do. -/
theorem compile_cropBounds_iff :
    (∀ (text : String) (d : Descriptor) (settings : Settings) (width height : Int),
      d.width = some width → d.height = some height → 0 < width → 0 < height →
      Named (some d) settings → (∀ x, d.duration = some x → x.inRange = true) →
      (∀ s, parse .bare text = .ok s → FiniteFades s.commands) →
      (∀ f, compile text (some d) settings = .error f → f.isDigitLimit = false) →
      ∃ s, parse .bare text = .ok s ∧
        ((∃ f, compile text (some d) settings = .error f ∧ f.isCropBounds = true) ↔
          width ≤ (Margins.total (crops s.commands)).horizontal ∨
            height ≤ (Margins.total (crops s.commands)).vertical)) ∧
      ∀ (text : String) (descriptor : Option Descriptor) (settings : Settings) (f : Fault),
        descriptor.bind Descriptor.frame? = none → compile text descriptor settings = .error f →
          f.isCropBounds = false := by
  constructor
  · intro text d settings width height hw hh hwidth hheight hnamed hrange hfades hlimit
    have hframe : (some d).bind Descriptor.frame? = some (width, height) := by
      rw [Option.bind_some, Descriptor.frame?, hw, hh]
      exact if_neg (by omega)
    obtain ⟨s, hparse⟩ := exists_parse hnamed hlimit
    have hbounded : ∀ f, compile text (some d) settings = .error f → f.isCropBounds = true ∧
        (Margins.total (crops s.commands)).checkBounds (some d) = .error f := by
      intro f hf
      rcases compile_error_cases hf with hdigits | ⟨-, hnot⟩ | ⟨s', hs', hcause⟩
      · rw [hlimit f hf] at hdigits
        cases hdigits
      · exact absurd hnamed hnot
      · obtain rfl := Except.ok.inj (hparse.symm.trans hs')
        rcases hcause with hbounds | ⟨-, direction, x, hfade, hx⟩
        · exact ⟨isCropBounds_of_checkBounds hbounds (hlimit f hf), hbounds⟩
        · -- a fade with an end, in a file with an end
          exfalso
          rcases hx with rfl | ⟨y, hy, hyrange⟩
          · cases hfades s hparse _ _ hfade
          · rw [hrange y hy] at hyrange
            cases hyrange
    refine ⟨s, hparse, ?_, fun hexceeds => ?_⟩
    · rintro ⟨f, hf, -⟩
      obtain ⟨w, h, hframe', hexceeds⟩ := exists_checkBounds_error.1 ⟨f, (hbounded f hf).2⟩
      obtain ⟨rfl, rfl⟩ := Prod.mk.inj (Option.some.inj (hframe.symm.trans hframe'))
      exact hexceeds
    · rw [← crops_ofScript] at hexceeds
      obtain ⟨f, hf⟩ := stops_of_exceeds (plain_ofScript hparse) hframe hwidth hheight hexceeds
      have hfailed := (compile_error_iff hnamed).2 (.inr ⟨s, hparse, hf⟩)
      exact ⟨f, hfailed, (hbounded f hfailed).1⟩
  · intro text descriptor settings f hframe hf
    rcases compile_error_cases hf with hdigits | ⟨rfl, -⟩ | ⟨s, -, hbounds | ⟨hendless, -⟩⟩
    · exact Fault.isCropBounds_of_isDigitLimit hdigits
    · rfl
    · rw [Margins.checkBounds, hframe] at hbounds
      cases hbounds
    · exact Fault.isCropBounds_of_isEndless hendless

/-- Two crops that only together leave nothing of the width. -/
def narrowScript : String :=
  "crop 60px from left\nfade out for 2s\ninput \"a.mp4\"\ncrop 40px from right"

/-- A small file of ten seconds. -/
def smallFile : Descriptor :=
  { width := some 100, height := some 50, duration := some (.finite 10) }

theorem compile_cropBounds_narrowScript :
    ∃ f, compile narrowScript (some smallFile) {} = .error f ∧ f.isCropBounds = true := by
  have hcommands : (parse .bare narrowScript).toOption.map Script.commands =
      some [.crop 60 (.known .left), .fade (.known .fadeOut) (.finite 2),
        .input "\"a.mp4\"" (some "a.mp4"), .crop 40 (.known .right)] := by
    decide +kernel
  have hread : ∀ s, parse .bare narrowScript = .ok s → s.commands =
      [.crop 60 (.known .left), .fade (.known .fadeOut) (.finite 2),
        .input "\"a.mp4\"" (some "a.mp4"), .crop 40 (.known .right)] := by
    intro s hs
    rw [hs] at hcommands
    exact Option.some.inj hcommands
  have hlimit : ∀ f, compile narrowScript (some smallFile) {} = .error f →
      f.isDigitLimit = false := by
    intro f hf
    have hall : ((compile narrowScript (some smallFile) {}).mapError Fault.isDigitLimit).map
        (fun _ => ()) = .error false := by
      decide +kernel
    rw [hf] at hall
    exact Except.error.inj hall
  obtain ⟨s, hs, hiff⟩ := compile_cropBounds_iff.1 narrowScript smallFile {} 100 50 rfl rfl
    (by decide) (by decide) ⟨rfl, rfl, fun _ hd => Option.some.inj hd ▸ rfl⟩
    (fun _ hx => Option.some.inj hx ▸ by decide +kernel)
    (fun s hs => by simp [FiniteFades, hread s hs, Double.isFinite]) hlimit
  refine hiff.2 (.inl ?_)
  rw [hread s hs]
  decide

end ClipScript
