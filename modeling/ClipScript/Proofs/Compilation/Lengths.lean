/-
# The length of the output in whole seconds

The last trim decides how long the output is: from its start to its end, or to the end of the
media file if that comes first; nothing is left when the file ends before the start
(`OutputSeconds`). Without a trim the output is as long as the file, or its length is not known.

For times without a fraction and a file of whole seconds this is what compiling comes to
(`outputSeconds_iff`). The times of a trim are in order, because a directive is only accepted if
they are (`Command.FromDirective.forward`).
-/
import ClipScript.Proofs.Compilation.Commands
import ClipScript.Proofs.Directives.Times
import ClipScript.Proofs.Number.Seconds

set_option autoImplicit false

namespace ClipScript

/-! ## Trims go forward -/

/-- **The end of a trim is later than its start,** if both are times in whole seconds. -/
def Command.Forward : Command → Prop
  | .trim start stop => ∀ a b, IsTime start a → IsTime stop b → a < b
  | _ => True

/-- **A directive becomes a trim that goes forward,** or another command. -/
theorem Command.FromDirective.forward {c : Command} (h : c.FromDirective) : c.Forward := by
  cases h with
  | trim lines valid begins ends later =>
    intro a b ha hb
    -- the times are those that the condition has compared
    obtain rfl := Except.ok.inj (begins.symm.trans (ha.secondsOf_eq lines.1 valid.1))
    obtain rfl := Except.ok.inj (ends.symm.trans (hb.secondsOf_eq lines.2 valid.2))
    simpa [Double.le, Double.lt] using later
  | _ => trivial

/-! ## Whole seconds -/

/-- **A trim in whole seconds:** its times have no fraction. -/
def WithoutFraction (times : String × String) : Prop :=
  '.' ∉ times.1.toList ∧ '.' ∉ times.2.toList

/-- **The length of the output in whole seconds,** when that of the media file is known or not. -/
inductive OutputSeconds (commands : List Command) (source : Option Nat) : Option Nat → Prop where
  | untrimmed (none_left : commands.filterMap Command.trim? = []) :
    OutputSeconds commands source source
  | trimmed {start stop : String} {a b : Nat}
      (last : (commands.filterMap Command.trim?).getLast? = some (start, stop))
      (begins : IsTime start a) (ends : IsTime stop b) (forward : a < b) :
    OutputSeconds commands source (some (source.elim b (b ⊓ ·) - a))

variable {commands : List Command} {descriptor : Option Descriptor} {source : Option Nat}

/-- **Every length in whole seconds** is the one that compiling comes to. -/
theorem OutputSeconds.outputDuration_eq {length : Option Nat}
    (h : OutputSeconds commands source length) (hplain : ∀ c ∈ commands, c.Plain)
    (hsource : Option.Rel Double.Counts (descriptor.bind Descriptor.duration) source) :
    ∃ duration, outputDuration commands descriptor = .ok duration ∧
      Option.Rel Double.Counts duration length := by
  rw [outputDuration]
  cases h with
  | untrimmed none_left =>
    rw [none_left]
    exact ⟨_, rfl, hsource⟩
  | @trimmed start stop a b last begins ends forward =>
    have hvalid := hplain _ (mem_of_mem_trims (List.mem_of_getLast? last))
    obtain ⟨hline, hstart⟩ := hvalid start (by simp)
    obtain ⟨hline', hstop⟩ := hvalid stop (by simp)
    have ha := Double.counts_finite (begins.lt_day.trans (by decide))
    have hb := Double.counts_finite (ends.lt_day.trans (by decide))
    rw [last]
    simp only [begins.secondsOf_eq hline hstart, ends.secondsOf_eq hline' hstop, bind, Except.bind]
    refine ⟨_, rfl, .some (Double.Counts.remaining ?_ ha)⟩
    -- the end of the file counts if it comes before that of the trim
    generalize descriptor.bind Descriptor.duration = length at hsource
    cases hsource with
    | none => exact hb
    | some hlength => exact hb.min hlength

/-- Trims without a fraction come to whole seconds. -/
theorem exists_outputSeconds (hplain : ∀ c ∈ commands, c.Plain)
    (hforward : ∀ c ∈ commands, c.Forward)
    (hwhole : ∀ times ∈ commands.filterMap Command.trim?, WithoutFraction times)
    (source : Option Nat) : ∃ length, OutputSeconds commands source length := by
  rcases hlast : (commands.filterMap Command.trim?).getLast? with _ | ⟨start, stop⟩
  · exact ⟨_, .untrimmed (List.getLast?_eq_none_iff.1 hlast)⟩
  · have hmem := List.mem_of_getLast? hlast
    have hvalid := hplain _ (mem_of_mem_trims hmem)
    obtain ⟨hline, hstart⟩ := hvalid start (by simp)
    obtain ⟨hline', hstop⟩ := hvalid stop (by simp)
    obtain ⟨a, ha⟩ := exists_isTime hline (hwhole _ hmem).1 hstart
    obtain ⟨b, hb⟩ := exists_isTime hline' (hwhole _ hmem).2 hstop
    exact ⟨_, .trimmed hlast ha hb (hforward _ (mem_of_mem_trims hmem) a b ha hb)⟩

/-- **The length of the output in whole seconds** is the one that compiling comes to, and there is
no other. -/
theorem outputSeconds_iff (hplain : ∀ c ∈ commands, c.Plain)
    (hforward : ∀ c ∈ commands, c.Forward)
    (hwhole : ∀ times ∈ commands.filterMap Command.trim?, WithoutFraction times)
    (hsource : Option.Rel Double.Counts (descriptor.bind Descriptor.duration) source)
    {duration : Option Double} (h : outputDuration commands descriptor = .ok duration) :
    ∃ length, Option.Rel Double.Counts duration length ∧
      ∀ k, OutputSeconds commands source k ↔ k = length := by
  obtain ⟨length, hlength⟩ := exists_outputSeconds hplain hforward hwhole source
  have hcounts : ∀ k, OutputSeconds commands source k → Option.Rel Double.Counts duration k := by
    intro k hk
    obtain ⟨x, hx, hrel⟩ := hk.outputDuration_eq hplain hsource
    rwa [Except.ok.inj (h.symm.trans hx)]
  refine ⟨length, hcounts length hlength, fun k => ⟨fun hk => ?_, ?_⟩⟩
  · exact Double.Counts.unique_of_rel (hcounts k hk) (hcounts length hlength)
  · rintro rfl
    exact hlength

end ClipScript
