/-
# How reading JSON fails

Most of what is wrong with a text that should be JSON is known by its place, and is
reported as such. Two things are not: a whole number with too many digits, and arrays
and objects that are nested too deeply. So a text that cannot be read is a bad value,
unless it is nested too deeply (`read_failsOnly`).

The reader calls itself for items and members, on texts that get shorter. The induction is
on the length of the text, for the three of them at once.
-/
import ClipScript.Json.Reader
import ClipScript.Proofs.Failing

set_option autoImplicit false

namespace ClipScript.Json

/-- What reading can stop for: something at a place, too many digits, or too deep a nesting. -/
def Stop.Expected : Stop → Prop
  | .before .. => True
  | .fault f => f.family = .badValue ∨ ∃ container, f = .tooDeep container

theorem stop_failsOnly {α : Type} (what : String) (cs : List Char) :
    FailsOnly Stop.Expected (stop what cs : Except Stop α) :=
  .error trivial

theorem tooDeep_failsOnly {α : Type} (container : String) :
    FailsOnly Stop.Expected (tooDeep container : Except Stop α) :=
  .error (.inr ⟨container, rfl⟩)

/-! ## Texts and numbers -/

theorem readUnit_failsOnly (cs : List Char) : FailsOnly Stop.Expected (readUnit cs) := by
  unfold readUnit
  split
  · split
    · exact .ok
    · exact stop_failsOnly _ _
  · exact stop_failsOnly _ _

theorem readEscape_failsOnly (c : Char) (r : List Char) :
    FailsOnly Stop.Expected (readEscape c r) := by
  unfold readEscape
  split
  · refine .bind (readUnit_failsOnly _) ?_
    rintro ⟨n, rest⟩ _
    dsimp only
    split
    · split
      · refine .bind (readUnit_failsOnly _) ?_
        rintro ⟨m, rest'⟩ _
        dsimp only
        split
        · exact .ok
        · exact .ok
      · exact .ok
    · exact .ok
  · split
    · exact .ok
    · exact stop_failsOnly _ _

theorem readChars_failsOnly (opening cs : List Char) :
    FailsOnly Stop.Expected (readChars opening cs) := by
  induction hn : cs.length using Nat.strongRecOn generalizing cs with
  | _ n ih =>
    subst hn
    unfold readChars
    split
    · exact stop_failsOnly _ _
    · next c r =>
      split
      · exact .ok
      · split
        · split
          · exact stop_failsOnly _ _
          · next c' r' =>
            -- behind an escape less is left
            refine .bind (readEscape_failsOnly c' r') fun escaped _ => ?_
            have hshorter : escaped.2.1.length < (c :: c' :: r').length :=
              Nat.lt_succ_of_lt escaped.2.2
            exact .bind (ih _ hshorter _ rfl) fun _ _ => .ok
        · split
          · exact stop_failsOnly _ _
          · exact .bind (ih r.length (Nat.lt_succ_self _) r rfl) fun _ _ => .ok

theorem readNumber_failsOnly (cs : List Char) : FailsOnly Stop.Expected (readNumber cs) := by
  unfold readNumber
  -- a sign or not, the rest is the same
  split
  all_goals
    dsimp only
    split
    · exact stop_failsOnly _ _
    · split
      · split
        · exact .error (.inl rfl)
        · exact .ok
      · exact .ok

theorem readSimple_failsOnly (cs : List Char) : FailsOnly Stop.Expected (readSimple cs) := by
  unfold readSimple
  split
  · exact .ok
  · exact readNumber_failsOnly cs

/-! ## Values -/

/-- **Values, items and members** of texts of some length. -/
structure ReadsTo (n : Nat) : Prop where
  value : ∀ cs, cs.length = n → ∀ depth, FailsOnly Stop.Expected (readValue depth cs)
  items : ∀ cs, cs.length = n → ∀ depth, FailsOnly Stop.Expected (readItems depth cs)
  members : ∀ cs, cs.length = n → ∀ depth, FailsOnly Stop.Expected (readMembers depth cs)

/-- What is read behind a character is shorter than what starts before it. -/
theorem length_skip_lt {cs r : List Char} {c : Char} (h : skip cs = c :: r) :
    (skip r).length < cs.length := by
  have hskip := skip_length cs
  have hrest := skip_length r
  rw [h, List.length_cons] at hskip
  omega

section Readers

variable {cs : List Char} (ih : ∀ m < cs.length, ReadsTo m) (depth : Nat)
include ih

theorem readValue_failsOnly : FailsOnly Stop.Expected (readValue depth cs) := by
  unfold readValue
  split
  · exact stop_failsOnly _ _
  · exact .bind (readChars_failsOnly _ _) fun _ _ => .ok
  · next r =>
    split
    · exact tooDeep_failsOnly _
    · have hshorter : (skip r).length < ('[' :: r).length := Nat.lt_succ_of_le (skip_length r)
      split
      · exact .ok
      · exact .bind ((ih _ hshorter).items _ rfl _) fun _ _ => .ok
  · next r =>
    split
    · exact tooDeep_failsOnly _
    · have hshorter : (skip r).length < ('\x7b' :: r).length := Nat.lt_succ_of_le (skip_length r)
      split
      · exact .ok
      · exact .bind ((ih _ hshorter).members _ rfl _) fun _ _ => .ok
  · exact .bind (readSimple_failsOnly _) fun _ _ => .ok

theorem readItems_failsOnly : FailsOnly Stop.Expected (readItems depth cs) := by
  unfold readItems
  -- the first item starts where the items do, and the others behind it
  refine .bind (readValue_failsOnly ih depth) ?_
  rintro ⟨item, rest⟩ _
  dsimp only
  split
  · exact .ok
  · next r h =>
    have hshorter := Nat.lt_trans (length_skip_lt h) rest.2
    exact .bind ((ih _ hshorter).items _ rfl _) fun _ _ => .ok
  · exact stop_failsOnly _ _

theorem readMembers_failsOnly : FailsOnly Stop.Expected (readMembers depth cs) := by
  unfold readMembers
  split
  · next r =>
    refine .bind (readChars_failsOnly _ _) ?_
    rintro ⟨name, afterName⟩ _
    dsimp only
    split
    · next r' h =>
      have hvalue : (skip r').length < r.length :=
        Nat.lt_trans (length_skip_lt h) afterName.2
      refine .bind ((ih _ (Nat.lt_succ_of_lt hvalue)).value _ rfl _) ?_
      rintro ⟨value, afterValue⟩ _
      dsimp only
      split
      · exact .ok
      · next r'' h' =>
        have hmembers := Nat.lt_trans (Nat.lt_trans (length_skip_lt h') afterValue.2) hvalue
        exact .bind ((ih _ (Nat.lt_succ_of_lt hmembers)).members _ rfl _) fun _ _ => .ok
      · exact stop_failsOnly _ _
    · exact stop_failsOnly _ _
  · exact stop_failsOnly _ _

end Readers

theorem readsTo (n : Nat) : ReadsTo n := by
  induction n using Nat.strongRecOn with
  | _ n ih =>
    refine ⟨?_, ?_, ?_⟩
    · rintro cs rfl
      exact readValue_failsOnly ih
    · rintro cs rfl
      exact readItems_failsOnly ih
    · rintro cs rfl
      exact readMembers_failsOnly ih

/-- What is wrong with a text that should be JSON: something at a place, a number, or its depth. -/
theorem family_of_read (s : String) (depth : Nat) :
    FailsOnly (fun f => f.family = .badJson ∨ f.family = .badValue ∨
      ∃ container, f = .tooDeep container) (read s depth) := by
  have hall : FailsOnly Stop.Expected (readAll depth s.toList) := by
    unfold readAll
    split
    · exact stop_failsOnly _ _
    · refine .bind ((readsTo _).value _ rfl _) ?_
      rintro ⟨value, rest⟩ _
      dsimp only
      split
      · exact .ok
      · exact stop_failsOnly _ _
  rw [read]
  rcases hread : readAll depth s.toList with (⟨what, left⟩ | f) | value
  · exact .error (.inl rfl)
  · exact .error (.inr (hall _ hread))
  · exact .ok

/-- **JSON that cannot be read** is a bad value, or nested too deeply. -/
theorem read_failsOnly (s : String) (depth : Nat) :
    FailsOnly (fun f => f.isValue = true ∨ ∃ container, f = .tooDeep container)
      (read s depth) := by
  refine (family_of_read s depth).mono fun f hf => ?_
  rcases hf with hjson | hvalue | hdeep
  · exact .inl (by rw [Fault.isValue, hjson]; rfl)
  · exact .inl (by rw [Fault.isValue, hvalue]; rfl)
  · exact .inr hdeep

end ClipScript.Json
