/-
# Words that are options

The encoder takes a word that starts with a hyphen for an option. The words of a
compiled script that do are the ones that building puts there on purpose. What comes
from a script is never one of them: a fragment starts with the name of a filter
(`not_isOption_of_build`), a time with a digit, and a format is one of a list
(`Command.FromDirective.noOption`). The two file names are all that is left to chance.
-/
import ClipScript.Proofs.Compilation.Building
import ClipScript.Proofs.Compilation.Commands
import ClipScript.Proofs.Script.Comments

set_option autoImplicit false

namespace ClipScript

/-- Whether a word is an option. -/
def IsOption (w : String) : Prop := w.toList.head? = some '-'

instance (w : String) : Decidable (IsOption w) := inferInstanceAs (Decidable (_ = _))

/-- Whether a word starts with something else than a hyphen. -/
def OpensOtherwise (w : String) : Prop := ∃ c, w.toList.head? = some c ∧ c ≠ '-'

theorem OpensOtherwise.not_isOption {w : String} (h : OpensOtherwise w) : ¬ IsOption w := by
  obtain ⟨c, hc, hne⟩ := h
  rw [IsOption, hc, Option.some.injEq]
  exact hne

theorem OpensOtherwise.append {a : String} (h : OpensOtherwise a) (b : String) :
    OpensOtherwise (a ++ b) := by
  obtain ⟨c, hc, hne⟩ := h
  refine ⟨c, ?_, hne⟩
  rw [String.toList_append, List.head?_append, hc]
  rfl

/-- Texts that are joined by commas are no option, if none of them is. -/
theorem not_isOption_intercalate {ts : List String} (h : ∀ t ∈ ts, ¬ IsOption t) :
    ¬ IsOption (String.intercalate "," ts) := by
  rcases ts with _ | ⟨t, ts⟩
  · decide
  · by_cases hts : ts = []
    · rw [hts, String.intercalate_singleton]
      exact h t List.mem_cons_self
    · have ht := h t List.mem_cons_self
      rw [String.intercalate_cons_of_ne_nil hts, String.append_assoc]
      -- an empty first text leaves the comma in front
      rcases hl : t.toList.head? with _ | c
      · rw [List.head?_eq_none_iff] at hl
        rw [IsOption, String.toList_append, hl, List.nil_append, String.toList_append]
        simp
      · rw [IsOption, hl, Option.some.injEq] at ht
        exact (OpensOtherwise.append ⟨c, hl, ht⟩ _).not_isOption

/-! ## Fragments -/

namespace Filter

theorem eq_of_fragmentOf {text : Except Fault String} {t : String}
    (h : fragmentOf text = .ok (some (.fragment t))) : text = .ok t := by
  rcases text with f | t'
  · cases h
  · simpa [fragmentOf, Except.map, Argument.fragment, Argument.of] using h

theorem not_isOption_of_fragmentOf {text : Except Fault String} (h : Gives OpensOtherwise text)
    {t : String} (ht : fragmentOf text = .ok (some (.fragment t))) : ¬ IsOption t :=
  (h t (eq_of_fragmentOf ht)).not_isOption

theorem scaleText_gives (width height : Int) (aspect : Word Aspect) :
    Gives OpensOtherwise (scaleText width height aspect) := by
  have hopens : OpensOtherwise "scale=" := ⟨'s', by decide, by decide⟩
  refine .bind fun w _ => .bind fun h _ => ?_
  split
  · exact .ok ((((hopens.append w).append ":").append h).append _)
  · exact .ok (((hopens.append w).append ":").append h)

theorem filter_gives (m : Margins) (d : Option Descriptor) : Gives OpensOtherwise (m.filter d) := by
  have hopens : OpensOtherwise "crop=" := ⟨'c', by decide, by decide⟩
  have hsized : ∀ w h : String, Gives OpensOtherwise (do
      return "crop=" ++ w ++ ":" ++ h ++ ":" ++ (← Number.writeInt m.left) ++ ":" ++
        (← Number.writeInt m.top)) := by
    intro w h
    refine .bind fun left _ => .bind fun top _ => .ok ?_
    repeat refine OpensOtherwise.append ?_ _
    exact hopens
  rw [Margins.filter]
  refine .bind fun _ _ => ?_
  split
  · exact .bind fun _ _ => .bind fun _ _ => hsized _ _
  · exact .bind fun _ _ => .bind fun _ _ => hsized _ _

theorem opensOtherwise_borderFilter : OpensOtherwise borderFilter := ⟨'c', by decide, by decide⟩

theorem cropText_gives (size : Int) (side : Word Side) (d : Option Descriptor) :
    Gives OpensOtherwise (cropText size side d) := by
  rw [cropText]
  split
  · exact .ok opensOtherwise_borderFilter
  · exact filter_gives _ d

theorem mergedCropText_gives (m : Margins) (detect : Bool) (d : Option Descriptor) :
    Gives OpensOtherwise (mergedCropText m detect d) := by
  rw [mergedCropText]
  split
  · exact .ok opensOtherwise_borderFilter
  · refine .map fun t ht => ?_
    split
    · exact (opensOtherwise_borderFilter.append ",").append t
    · exact filter_gives m d t ht

theorem drawText_gives (text : String) (place : Word Placement) (alignment : Word Alignment)
    (margin : Int) : Gives OpensOtherwise (drawText text place alignment margin) := by
  have hopens : OpensOtherwise "drawtext=text='" := ⟨'d', by decide, by decide⟩
  refine .bind fun xy _ => .ok ?_
  have hbase : OpensOtherwise ("drawtext=text='" ++ drawn text ++
      "':fontsize=24:fontcolor=white:x=" ++ xy.1 ++ ":y=" ++ xy.2) := by
    repeat refine OpensOtherwise.append ?_ _
    exact hopens
  split
  · exact hbase
  · exact (hbase.append _).append _

theorem imageText_gives (path : String) (label : Nat) (place : Word Placement) :
    Gives OpensOtherwise (imageText path label place) := by
  have hopens : OpensOtherwise "null" := ⟨'n', by decide, by decide⟩
  refine .bind fun xy _ => .ok ?_
  repeat refine OpensOtherwise.append ?_ _
  exact hopens

theorem opensOtherwise_subtitlesText (path : String) (place : Word Placement) :
    OpensOtherwise (subtitlesText path place) := by
  have hopens : OpensOtherwise "subtitles=" := ⟨'s', by decide, by decide⟩
  exact (hopens.append path).append _

/-- **The fragment of a fade** has a part for each end of the output that it is at, with the length
of the fade. -/
theorem exists_parts_of_fadeStep {direction : Word FadeDirection} {duration : Double}
    {output : Option Double} {n : Nat} {t : String}
    (h : (fadeStep direction duration output n).outcome = .ok (some (.fragment t))) :
    ∃ text parts, formatNumber duration = .ok text ∧ t = String.intercalate "," parts ∧
      ∀ p ∈ parts, p = "fade=t=in:st=0:d=" ++ text ∨
        ∃ start, fadeOutStart duration output = .ok start ∧
          p = "fade=t=out:st=" ++ start ++ ":d=" ++ text := by
  rw [fadeStep] at h
  rcases hn : formatNumber duration with f | text
  · simp only [hn] at h
    cases h
  · have hin : ∀ p ∈ (if (fadeParts direction).1 then ["fade=t=in:st=0:d=" ++ text] else []),
        p = "fade=t=in:st=0:d=" ++ text := by
      intro p hp
      split at hp
      · exact List.mem_singleton.1 hp
      · cases hp
    rcases hw : overrun text duration output with f | warnings
    · simp only [hn, hw] at h
      cases h
    · simp only [hn, hw] at h
      split at h
      · -- the direction has a fade out, whose start has to be computed
        have heq := eq_of_fragmentOf h
        rcases hs : fadeOutStart duration output with f | start
        · rw [hs] at heq
          cases heq
        · rw [hs] at heq
          refine ⟨text, _, rfl, (Except.ok.inj heq).symm, ?_⟩
          intro p hp
          rcases List.mem_append.1 hp with hp | hp
          · exact .inl (hin p hp)
          · exact .inr ⟨start, rfl, List.mem_singleton.1 hp⟩
      · refine ⟨text, _, rfl, (Except.ok.inj (@eq_of_fragmentOf (.ok _) t h)).symm, ?_⟩
        intro p hp
        exact .inl (hin p hp)

/-- The parts of a fade are no options, even if there are none. -/
theorem not_isOption_fade {direction : Word FadeDirection} {duration : Double}
    {output : Option Double} {n : Nat} {t : String}
    (h : (fadeStep direction duration output n).outcome = .ok (some (.fragment t))) :
    ¬ IsOption t := by
  obtain ⟨text, parts, -, rfl, hparts⟩ := exists_parts_of_fadeStep h
  apply not_isOption_intercalate
  intro p hp
  -- each part starts with the name of its filter
  rcases hparts p hp with rfl | ⟨start, -, rfl⟩
  · exact (OpensOtherwise.append ⟨'f', by decide, by decide⟩ _).not_isOption
  · have hopens : OpensOtherwise "fade=t=out:st=" := ⟨'f', by decide, by decide⟩
    exact (((hopens.append start).append _).append _).not_isOption

/-- **No fragment is an option.** -/
theorem not_isOption_of_build {ctx : Context} {n : Nat} {c : Command} {t : String}
    (hc : c.isPicture = true) (h : (build ctx n c).outcome = .ok (some (.fragment t))) :
    ¬ IsOption t := by
  rcases c with _ | _ | _ | ⟨width, height, aspect⟩ | ⟨size, side⟩ | ⟨m, detect⟩ |
    ⟨direction, duration⟩ | ⟨kind, content, place⟩ | ⟨text, place, alignment, margin⟩ | cycle |
    _ | _ | _
  case scale => exact not_isOption_of_fragmentOf (scaleText_gives width height aspect) h
  case crop => exact not_isOption_of_fragmentOf (cropText_gives size side _) h
  case mergedCrop => exact not_isOption_of_fragmentOf (mergedCropText_gives m detect _) h
  case fade => exact not_isOption_fade h
  case burn =>
    rcases kind with (_ | _ | _) | _
    case known.text => exact not_isOption_of_fragmentOf (drawText_gives _ _ _ _) h
    case known.subtitles =>
      exact not_isOption_of_fragmentOf (.ok (opensOtherwise_subtitlesText _ place)) h
    all_goals exact not_isOption_of_fragmentOf (imageText_gives _ _ _) h
  case caption => exact not_isOption_of_fragmentOf (drawText_gives text place alignment margin) h
  case deduplicate =>
    have hopens : OpensOtherwise "decimate=cycle=" := ⟨'d', by decide, by decide⟩
    exact not_isOption_of_fragmentOf (.map fun w _ => hopens.append w) h
  all_goals cases hc

end Filter

/-! ## Commands -/

/-- **A command whose words are not options,** other than those that building puts there. -/
def Command.NoOption : Command → Prop
  | .trim start stop => ¬ IsOption start ∧ ¬ IsOption stop
  | .convert format => ¬ IsOption (Filter.muxer format)
  | _ => True

theorem not_isOption_of_isValidTime {s : String} (h : isValidTime s = .ok true) : ¬ IsOption s := by
  intro hoption
  rw [isValidTime_of_head hoption (by decide) (by decide) (by decide)] at h
  cases h

/-- **A directive becomes a command whose words are not options:** its times are valid, and its
format is one of the list. -/
theorem Command.FromDirective.noOption {c : Command} (h : c.FromDirective) : c.NoOption := by
  cases h with
  | trim lines valid begins ends later =>
    exact ⟨not_isOption_of_isValidTime valid.1, not_isOption_of_isValidTime valid.2⟩
  | @convert format listed =>
    have hall : ∀ f ∈ outputFormats, ¬ IsOption (Filter.muxer f) := by decide
    exact hall format listed
  | _ => trivial

end ClipScript
