/-
# How reading media facts fails

Media facts are given as JSON of any shape. What is wrong with them is mostly a bad value,
or a value of the wrong kind. Five things are neither (`Unreadable`): a length or a frame
rate that is a whole number beyond all doubles, a resolution that is there but no text,
and a width or a height that is infinite. The facts are read in a fixed order, and only
the first thing that is wrong counts.
-/
import ClipScript.Descriptor
import ClipScript.Proofs.Failing

set_option autoImplicit false

namespace ClipScript

open Number

/-- Neither a bad value nor a value of the wrong kind. -/
def Fault.Unforeseen (f : Fault) : Prop := f.isValue = false ∧ f.isWrongKind = false

instance (f : Fault) : Decidable f.Unforeseen := inferInstanceAs (Decidable (_ ∧ _))

theorem Fault.not_unforeseen {f : Fault} (h : f.isValue = true) : ¬ f.Unforeseen := by
  rintro ⟨hvalue, -⟩
  cases h.symm.trans hvalue

/-! ## Numbers -/

theorem Fault.isValue_of_badValue {f : Fault} (h : f.family = .badValue) : f.isValue = true := by
  rw [isValue, h]
  rfl

theorem badValue_of_readInt (s : String) :
    FailsOnly (fun f => f.family = .badValue) (readInt s) := by
  rw [readInt]
  dsimp only
  split
  · exact .error rfl
  · split
    · exact .error rfl
    · split
      · exact .error rfl
      · exact .ok

theorem badValue_of_readDecimal (s : String) :
    FailsOnly (fun f => f.family = .badValue) (readDecimal s) := by
  rw [readDecimal]
  split
  · exact .error rfl
  · split
    · exact .ok
    · exact .error rfl

theorem readInt_failsOnly (s : String) : FailsOnly (fun f => f.isValue = true) (readInt s) :=
  (badValue_of_readInt s).mono fun _ => Fault.isValue_of_badValue

theorem readDecimal_failsOnly (s : String) :
    FailsOnly (fun f => f.isValue = true) (readDecimal s) :=
  (badValue_of_readDecimal s).mono fun _ => Fault.isValue_of_badValue

namespace Descriptor

/-- A whole number beyond all doubles. -/
def BeyondDouble (j : Json) : Prop := ∃ n, j = .whole n ∧ (Double.ofInt n).isFinite = false

/-- An infinite number. -/
def Infinite (j : Json) : Prop := ∃ negative, j = .real (.infinity negative)

/-- **A length or a frame rate** is refused, or converted, unless it is beyond all doubles. -/
theorem failsWith_doubleOfJson {j : Json} :
    FailsWith Fault.Unforeseen (doubleOfJson j) ↔ BeyondDouble j := by
  rcases j with _ | b | n | x | s | items | members
  case whole =>
    rw [doubleOfJson, doubleOfInt]
    simp only [BeyondDouble, Json.whole.injEq, exists_eq_left']
    split
    · next h => simp [h]
    · next h =>
      rw [Bool.not_eq_true] at h
      exact ⟨fun _ => h, fun _ => failsWith_error.2 ⟨rfl, rfl⟩⟩
  case text =>
    have hread := (readDecimal_failsOnly s).not_failsWith fun _ => Fault.not_unforeseen
    simpa [doubleOfJson, BeyondDouble] using hread
  all_goals simp [doubleOfJson, BeyondDouble, Fault.Unforeseen, Fault.isWrongKind, Fault.family]

/-- **A width or a height** is refused, or converted, unless it is infinite. -/
theorem failsWith_intOfJson {j : Json} :
    FailsWith Fault.Unforeseen (intOfJson j) ↔ Infinite j := by
  rcases j with _ | b | n | x | s | items | members
  case real =>
    rcases x with _ | negative | _ | q
    · simp [intOfJson, intOfDouble, Infinite, Fault.Unforeseen, Fault.isValue, Fault.family,
        Fault.Family.isValue]
    · rw [intOfJson, intOfDouble]
      exact ⟨fun _ => ⟨negative, rfl⟩, fun _ => failsWith_error.2 ⟨rfl, rfl⟩⟩
    · simp [intOfJson, intOfDouble, Infinite]
    · simp [intOfJson, intOfDouble, Infinite]
  case text =>
    have hread := (readInt_failsOnly s).not_failsWith fun _ => Fault.not_unforeseen
    simpa [intOfJson, Infinite] using hread
  all_goals simp [intOfJson, Infinite, Fault.Unforeseen, Fault.isWrongKind, Fault.family]

/-- What may be missing fails if it is there and fails. -/
theorem failsWith_optional {α : Type} {P : Fault → Prop} {read : Json → Except Fault α}
    {j : Json} (hnull : ¬ FailsWith P (read .null)) :
    FailsWith P (optional read j) ↔ FailsWith P (read j) := by
  rcases j with _ | b | n | x | s | items | members
  case null => simp [optional, hnull]
  all_goals
    rw [optional]
    · exact failsWith_map
    · rintro ⟨⟩

theorem failsWith_length {j : Json} :
    FailsWith Fault.Unforeseen (optional doubleOfJson j) ↔ BeyondDouble j := by
  rw [failsWith_optional, failsWith_doubleOfJson]
  rw [failsWith_doubleOfJson]
  rintro ⟨_, ⟨⟩, _⟩

theorem failsWith_size {j : Json} :
    FailsWith Fault.Unforeseen (optional intOfJson j) ↔ Infinite j := by
  rw [failsWith_optional, failsWith_intOfJson]
  rw [failsWith_intOfJson]
  rintro ⟨_, ⟨⟩⟩

/-! ## Codecs and resolutions -/

theorem codecsOf_failsOnly (members : List (String × Json)) :
    FailsOnly (fun f => f.isValue = true) (codecsOf members) := by
  rw [codecsOf]
  split
  · exact .ok
  · split
    · exact .ok
    · exact .error rfl

theorem splitResolution_failsOnly (s : String) :
    FailsOnly (fun f => f.isValue = true) (splitResolution s) := by
  rw [splitResolution]
  split
  · split
    · exact .ok
    · exact .error rfl
  · exact .error rfl

theorem withResolution_failsOnly (s : String) (d : Descriptor) :
    FailsOnly (fun f => f.isValue = true) (d.withResolution s) := by
  rw [withResolution]
  refine .bind (splitResolution_failsOnly s) ?_
  rintro ⟨width, height⟩ _
  dsimp only
  split
  · exact .error rfl
  · exact .ok

/-! ## Media facts -/

/-- Whether what comes before the size can be read. -/
structure Timed (members : List (String × Json)) : Prop where
  codecs : ∃ c, codecsOf members = .ok c
  duration : ∃ x, optional doubleOfJson (Json.get members "duration") = .ok x
  fps : ∃ x, optional doubleOfJson (Json.get members "fps") = .ok x

/-- **Media facts that break reading,** though what comes before can be read. -/
inductive Unreadable (members : List (String × Json)) : Prop where
  | duration (codecs : ∃ c, codecsOf members = .ok c)
      (large : BeyondDouble (Json.get members "duration"))
  | fps (codecs : ∃ c, codecsOf members = .ok c)
      (duration : ∃ x, optional doubleOfJson (Json.get members "duration") = .ok x)
      (large : BeyondDouble (Json.get members "fps"))
  | resolution (timed : Timed members) (given : (Json.get members "resolution").isGiven = true)
      (shape : ∀ s, Json.get members "resolution" ≠ .text s)
  | width (timed : Timed members) (missing : (Json.get members "resolution").isGiven = false)
      (infinite : Infinite (Json.get members "width"))
  | height (timed : Timed members) (missing : (Json.get members "resolution").isGiven = false)
      (width : ∃ n, optional intOfJson (Json.get members "width") = .ok n)
      (infinite : Infinite (Json.get members "height"))

/-- **Reading media facts** fails for something that is neither a bad value nor of the wrong kind
exactly if they break it. -/
theorem failsWith_ofJson {j : Json} :
    FailsWith Fault.Unforeseen (ofJson j) ↔
      ∃ members, j = .object members ∧ Unreadable members := by
  rcases j with _ | b | n | x | s | items | members
  case object =>
    have hcodecs := (codecsOf_failsOnly members).not_failsWith fun _ => Fault.not_unforeseen
    have hresolution : ∀ s d, ¬ FailsWith Fault.Unforeseen (withResolution s d) := fun s d =>
      (withResolution_failsOnly s d).not_failsWith fun _ => Fault.not_unforeseen
    simp only [Json.object.injEq, exists_eq_left', ofJson, failsWith_bind, failsWith_length,
      hcodecs, false_or]
    constructor
    · rintro ⟨c, hc, hduration | ⟨x, hx, hfps | ⟨y, hy, h⟩⟩⟩
      · exact .duration ⟨c, hc⟩ hduration
      · exact .fps ⟨c, hc⟩ ⟨x, hx⟩ hfps
      · have htimed : Timed members := ⟨⟨c, hc⟩, ⟨x, hx⟩, ⟨y, hy⟩⟩
        split at h
        · next hgiven =>
          split at h
          · exact absurd h (hresolution _ _)
          · next hshape => exact .resolution htimed hgiven hshape
        · next hmissing =>
          rw [Bool.not_eq_true] at hmissing
          simp only [failsWith_bind, failsWith_size] at h
          rcases h with hwidth | ⟨w, hw, hheight | ⟨h, -, hdone⟩⟩
          · exact .width htimed hmissing hwidth
          · exact .height htimed hmissing ⟨w, hw⟩ hheight
          · exact absurd hdone not_failsWith_ok
    · rintro (⟨⟨c, hc⟩, hduration⟩ | ⟨⟨c, hc⟩, ⟨x, hx⟩, hfps⟩ |
        ⟨⟨⟨c, hc⟩, ⟨x, hx⟩, ⟨y, hy⟩⟩, hgiven, hshape⟩ |
        ⟨⟨⟨c, hc⟩, ⟨x, hx⟩, ⟨y, hy⟩⟩, hmissing, hwidth⟩ |
        ⟨⟨⟨c, hc⟩, ⟨x, hx⟩, ⟨y, hy⟩⟩, hmissing, ⟨w, hw⟩, hheight⟩)
      · exact ⟨c, hc, .inl hduration⟩
      · exact ⟨c, hc, .inr ⟨x, hx, .inl hfps⟩⟩
      · refine ⟨c, hc, .inr ⟨x, hx, .inr ⟨y, hy, ?_⟩⟩⟩
        rw [if_pos hgiven]
        split
        · next s hs => exact absurd hs (hshape s)
        · exact failsWith_error.2 ⟨rfl, rfl⟩
      · refine ⟨c, hc, .inr ⟨x, hx, .inr ⟨y, hy, ?_⟩⟩⟩
        rw [if_neg (by simp [hmissing]), failsWith_bind, failsWith_size]
        exact .inl hwidth
      · refine ⟨c, hc, .inr ⟨x, hx, .inr ⟨y, hy, ?_⟩⟩⟩
        rw [if_neg (by simp [hmissing]), failsWith_bind]
        refine .inr ⟨w, hw, ?_⟩
        rw [failsWith_bind, failsWith_size]
        exact .inl hheight
  all_goals simp [ofJson, Fault.Unforeseen, Fault.isValue, Fault.family, Fault.Family.isValue]

end Descriptor

end ClipScript
