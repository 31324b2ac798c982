/-
# What is built from commands

A command becomes a fragment of the video filter chain, or words for another part of
the command line, or nothing. Which of these it is depends on its kind alone
(`build_picture`, `build_other`); only the text of a fragment depends on more.

So the arguments of a script fall apart by kinds: the fragments are those of the
commands that change the picture, one for each and in their order (`Builds`), and the
words for every other part are read off the commands (`run_steps`).
-/
import ClipScript.Filter.Building
import ClipScript.Proofs.Compilation.Stages

set_option autoImplicit false

namespace ClipScript

/-! ## Kinds of commands -/

/-- The stream of a compression. -/
def Command.stream? : Command → Option (Word Stream)
  | compress stream => some stream
  | _ => none

/-- Whether a command changes the picture. -/
def Command.isPicture : Command → Bool
  | scale .. | crop .. | mergedCrop .. | fade .. | burn .. | caption .. | deduplicate _ => true
  | _ => false

/-- The words of a trim. -/
def trimWords (times : String × String) : List String := ["-ss", times.1, "-to", times.2]

/-- The words of a conversion. -/
def formatWords (format : String) : List String := ["-f", Filter.muxer format]

/-- The words of a compression. -/
def codecWords (stream : Word Stream) : List String :=
  if stream = .known .audio then ["-b:a", "128k"] else ["-crf", "23"]

/-- The argument of a command that does not change the picture. -/
def plainArgument : Command → Option Argument
  | .trim start stop => some (.of .input (trimWords (start, stop)))
  | .convert format => some (.of .outputFormat (formatWords format))
  | .compress stream => some (.of .outputCodec (codecWords stream))
  | _ => none

/-! ## Building one command -/

namespace Filter

variable {ctx : Context} {n : Nat} {c : Command}

theorem fragmentOf_ok {text : Except Fault String} {o : Option Argument}
    (h : fragmentOf text = .ok o) : ∃ t, o = some (.fragment t) := by
  rcases text with f | t
  · cases h
  · exact ⟨t, (Except.ok.inj h).symm⟩

theorem fadeStep_picture {direction : Word FadeDirection} {duration : Double}
    {output : Option Double} {o : Option Argument}
    (h : (fadeStep direction duration output n).outcome = .ok o) : ∃ t, o = some (.fragment t) := by
  rw [fadeStep] at h
  rcases hn : formatNumber duration with f | text
  · simp only [hn] at h
    cases h
  · -- a length that the warning cannot write is a fault, and there is no fragment then
    rcases hw : overrun text duration output with f | warnings
    · simp only [hn, hw] at h
      cases h
    · simp only [hn, hw] at h
      split at h
      · exact fragmentOf_ok h
      · exact @fragmentOf_ok (.ok _) o h

/-- **A command that changes the picture** becomes a fragment. -/
theorem build_picture (hc : c.isPicture = true) {o : Option Argument}
    (h : (build ctx n c).outcome = .ok o) : ∃ t, o = some (.fragment t) := by
  rcases c with _ | _ | _ | ⟨width, height, aspect⟩ | ⟨size, side⟩ | ⟨m, detect⟩ |
    ⟨direction, duration⟩ | ⟨kind, content, place⟩ | ⟨text, place, alignment, margin⟩ | cycle |
    _ | _ | _
  case scale => exact fragmentOf_ok h
  case crop => exact fragmentOf_ok h
  case mergedCrop => exact fragmentOf_ok h
  case fade =>
    exact fadeStep_picture h
  case burn =>
    rcases kind with (_ | _ | _) | _
    case known.subtitles => exact @fragmentOf_ok (.ok _) o h
    all_goals exact fragmentOf_ok h
  case caption => exact fragmentOf_ok h
  case deduplicate => exact fragmentOf_ok h
  all_goals cases hc

/-- **Any other command** becomes its words, or nothing, and no image is counted. -/
theorem build_other (ctx : Context) (n : Nat) (hc : c.isPicture = false) :
    (build ctx n c).outcome = .ok (plainArgument c) ∧ (build ctx n c).images = n := by
  rcases c with _ | _ | _ | _ | _ | _ | _ | _ | _ | _ | _ | _ | _
  all_goals first | exact ⟨rfl, rfl⟩ | cases hc

/-! ## Building a script -/

/-- **The fragments of commands,** after some number of images: one from each command that changes
the picture, in order, built with the images counted so far. -/
inductive Builds (ctx : Context) : Nat → List Command → List String → Prop where
  | nil {n : Nat} : Builds ctx n [] []
  | picture {n : Nat} {c : Command} {cs : List Command} {t : String} {ts : List String}
      (picture : c.isPicture = true) (built : (build ctx n c).outcome = .ok (some (.fragment t)))
      (rest : Builds ctx (build ctx n c).images cs ts) : Builds ctx n (c :: cs) (t :: ts)
  | other {n : Nat} {c : Command} {cs : List Command} {ts : List String}
      (other : c.isPicture = false) (rest : Builds ctx n cs ts) : Builds ctx n (c :: cs) ts

theorem Builds.length_eq {cs : List Command} {ts : List String} (h : Builds ctx n cs ts) :
    ts.length = cs.countP Command.isPicture := by
  induction h with
  | nil => rfl
  | picture hc _ _ ih => rw [List.length_cons, ih, List.countP_cons_of_pos hc]
  | other hc _ ih => rw [ih, List.countP_cons_of_neg (by simp [hc])]

theorem Builds.isEmpty_eq {cs : List Command} {ts : List String} (h : Builds ctx n cs ts) :
    ts.isEmpty = !cs.any Command.isPicture := by
  have hlen := h.length_eq
  cases hany : cs.any Command.isPicture with
  | true =>
    -- one such command has a fragment, so there is one
    obtain ⟨c, hmem, hc⟩ := List.any_eq_true.1 hany
    have hpos : 0 < cs.countP Command.isPicture := List.countP_pos_iff.2 ⟨c, hmem, hc⟩
    rcases ts with _ | ⟨t, ts⟩
    · rw [← hlen] at hpos
      cases hpos
    · rfl
  | false =>
    have hzero : cs.countP Command.isPicture = 0 :=
      List.countP_eq_zero.2 fun c hmem => by simpa using List.any_eq_false.1 hany c hmem
    rw [hzero] at hlen
    rw [List.eq_nil_of_length_eq_zero hlen]
    rfl

/-- **What the arguments of commands are:** the fragments of those that change the picture, and for
every other part the words of the rest. -/
structure Built (ctx : Context) (n : Nat) (cs : List Command) (arguments : List Argument) :
    Prop where
  staged : ∀ a ∈ arguments, a.Staged
  fragments : ∃ ts, Builds ctx n cs ts ∧
    argumentsFor .videoFilter arguments = ts.map Argument.fragment
  words : ∀ part, part ≠ .videoFilter →
    argumentsFor part arguments = argumentsFor part (cs.filterMap plainArgument)

namespace Built

variable {cs : List Command} {later : List Argument}

theorem picture {t : String} (hc : c.isPicture = true)
    (built : (build ctx n c).outcome = .ok (some (.fragment t)))
    (h : Built ctx (build ctx n c).images cs later) :
    Built ctx n (c :: cs) (.fragment t :: later) := by
  -- such a command has no words of its own, only the fragment
  obtain ⟨ts, hts, hvideo⟩ := h.fragments
  have hnone : plainArgument c = none := by
    rcases c with _ | _ | _ | _ | _ | _ | _ | _ | _ | _ | _ | _ | _
    all_goals first | rfl | cases hc
  refine ⟨?_, ⟨t :: ts, .picture hc built hts, ?_⟩, fun part hpart => ?_⟩
  · intro a ha
    rcases List.mem_cons.1 ha with rfl | ha
    · exact Argument.staged_of ..
    · exact h.staged a ha
  · rw [List.map_cons, ← hvideo]
    rfl
  · rw [List.filterMap_cons_none hnone, ← h.words part hpart]
    exact List.filter_cons_of_neg (by simpa [Argument.fragment, Argument.of] using hpart.symm)

theorem other (hc : c.isPicture = false) (h : Built ctx n cs later) :
    Built ctx n (c :: cs) ((plainArgument c).toList ++ later) := by
  obtain ⟨ts, hts, hvideo⟩ := h.fragments
  -- its words are at the stage of their part, and that is not the video chain
  have hplain : ∀ a ∈ (plainArgument c).toList, a.Staged ∧ a.destination ≠ .videoFilter := by
    rcases c with _ | _ | _ | _ | _ | _ | _ | _ | _ | _ | _ | _ | _
    all_goals simp [plainArgument, Argument.of, Argument.Staged, Destination.stage]
  refine ⟨?_, ⟨ts, .other hc hts, ?_⟩, fun part hpart => ?_⟩
  · intro a ha
    rcases List.mem_append.1 ha with ha | ha
    · exact (hplain a ha).1
    · exact h.staged a ha
  · have hnone : argumentsFor .videoFilter (plainArgument c).toList = [] :=
      List.filter_eq_nil_iff.2 fun a ha => by simp [(hplain a ha).2]
    rw [argumentsFor_append, hvideo, hnone, List.nil_append]
  · have hcons : (c :: cs).filterMap plainArgument =
        (plainArgument c).toList ++ cs.filterMap plainArgument := by
      rw [List.filterMap_cons]
      rcases plainArgument c with _ | a <;> rfl
    rw [hcons, argumentsFor_append, argumentsFor_append, h.words part hpart]

end Built

/-- **The arguments of a script** that is built. The induction is on the commands, each with the
images that those before it have counted. -/
theorem run_steps {cs : List Command} {arguments : List Argument}
    (h : (run (steps ctx n cs)).outcome = .ok arguments) : Built ctx n cs arguments := by
  induction cs generalizing n arguments with
  | nil =>
    obtain rfl := Except.ok.inj h
    exact ⟨by simp, ⟨[], .nil, rfl⟩, fun _ _ => rfl⟩
  | cons c cs ih =>
    rw [steps, run] at h
    rcases ho : (build ctx n c).outcome with f | o
    · simp only [ho] at h
      cases h
    · simp only [ho] at h
      -- the commands behind it are built with the images it has counted
      rcases hlater : (run (steps ctx (build ctx n c).images cs)).outcome with f | later
      · rw [hlater] at h
        cases h
      · rw [hlater] at h
        obtain rfl := Except.ok.inj h
        by_cases hc : c.isPicture = true
        · obtain ⟨t, rfl⟩ := build_picture hc ho
          exact (ih hlater).picture hc ho
        · rw [Bool.not_eq_true] at hc
          obtain ⟨hplain, himages⟩ := build_other ctx n hc
          obtain rfl : plainArgument c = o := Except.ok.inj (hplain.symm.trans ho)
          -- no image was counted, so the others are built as if it were not there
          rw [himages] at hlater
          exact (ih hlater).other hc

end Filter

/-! ## Words of commands -/

/-- **The words for each part** of commands that do not change the picture. -/
theorem wordsFor_filterMap_plainArgument (cs : List Command) :
    wordsFor .input (cs.filterMap plainArgument) =
        (cs.filterMap Command.trim?).flatMap trimWords ∧
      wordsFor .outputFormat (cs.filterMap plainArgument) =
        (cs.filterMap Command.format?).flatMap formatWords ∧
      wordsFor .outputCodec (cs.filterMap plainArgument) =
        (cs.filterMap Command.stream?).flatMap codecWords ∧
      argumentsFor .globalOption (cs.filterMap plainArgument) = [] ∧
      argumentsFor .audioFilter (cs.filterMap plainArgument) = [] := by
  induction cs with
  | nil => exact ⟨rfl, rfl, rfl, rfl, rfl⟩
  | cons c cs ih =>
    obtain ⟨hinput, hformat, hcodec, hglobal, haudio⟩ := ih
    rcases c with _ | _ | _ | _ | _ | _ | _ | _ | _ | _ | _ | _ | _
    case trim start stop =>
      refine ⟨?_, hformat, hcodec, hglobal, haudio⟩
      exact congrArg (trimWords (start, stop) ++ ·) hinput
    case convert format =>
      refine ⟨hinput, ?_, hcodec, hglobal, haudio⟩
      exact congrArg (formatWords format ++ ·) hformat
    case compress stream =>
      refine ⟨hinput, hformat, ?_, hglobal, haudio⟩
      exact congrArg (codecWords stream ++ ·) hcodec
    all_goals exact ⟨hinput, hformat, hcodec, hglobal, haudio⟩

end ClipScript
