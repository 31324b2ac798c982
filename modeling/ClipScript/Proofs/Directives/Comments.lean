/-
# Comments among the parameters

A comment can stand where a directive expects a parameter. Most slots reject it, and
then reading is taken up again at the comment. Two directives have slots that let it
through:

* the file of `input` may be any text with the right ending, so a comment with such an
  ending is taken for a file (`comment_of_walkFrom_done`);
* the times of `trim` may be any text in a line. They are checked later, and no comment
  is a valid time (`isValidTime_of_hash`), but by then the walk is past the comment.
-/
import ClipScript.Proofs.Directives.Outcomes
import ClipScript.Proofs.Directives.Patterns

set_option autoImplicit false

namespace ClipScript

open Text

/-! ## Times -/

namespace ClockTime

variable {c : Char}

/-- Nothing that starts with another character is a run of digits. -/
theorem not_isDigits_cons (hc : isDigit c = false) (cs : List Char) :
    isDigits (c :: cs) = false := by
  simp [isDigits, hc]

theorem not_isSeconds_cons (hc : isDigit c = false) (cs : List Char) :
    isSeconds (c :: cs) = false := by
  simp only [isSeconds, List.takeWhile_cons_of_neg (by simp [hc] : ¬ isDigit c = true),
    List.dropWhile_cons_of_neg (by simp [hc] : ¬ isDigit c = true)]
  split
  · rfl
  · rfl
  · rfl

/-- A time starts with a digit. -/
theorem not_hasForm_of_head {s : String} (h : s.toList.head? = some c) (hc : isDigit c = false)
    (hcolon : c ≠ ':') (hline : c ≠ '\n') : hasForm s = false := by
  obtain ⟨cs, hcs⟩ := List.head?_eq_some_iff.1 h
  -- dropping a line feed at the end leaves the first character
  obtain ⟨ds, hds⟩ : ∃ ds, dropLineFeed s.toList = c :: ds := by
    rw [hcs, dropLineFeed]
    split
    · next hlast =>
      rcases cs with _ | ⟨d, cs⟩
      · exact absurd (Option.some.inj hlast) hline
      · exact ⟨_, List.dropLast_cons_cons⟩
    · exact ⟨cs, rfl⟩
  -- no colon comes first, so the first part starts with that character
  obtain ⟨a, as, has⟩ : ∃ a as, (dropLineFeed s.toList).splitOn ':' = (c :: a) :: as := by
    obtain ⟨a, as, has⟩ := List.exists_cons_of_ne_nil (List.splitOn_ne_nil ':' ds)
    refine ⟨a, as, ?_⟩
    rw [hds, List.splitOn_cons_eq_if_modifyHead, if_neg (by simpa using hcolon), has,
      List.modifyHead_cons]
  rw [hasForm, has]
  -- whatever the number of parts, the first one has to start with a digit
  rcases as with _ | ⟨b, _ | ⟨d, _ | _⟩⟩
  · exact not_isSeconds_cons hc a
  · simp [isShort, not_isDigits_cons hc]
  · simp [not_isDigits_cons hc]
  · rfl

end ClockTime

/-- **A valid time starts with a digit.** -/
theorem isValidTime_of_head {s : String} {c : Char} (h : s.toList.head? = some c)
    (hc : isDigit c = false) (hcolon : c ≠ ':') (hline : c ≠ '\n') :
    isValidTime s = .ok false := by
  have hread : ClockTime.read? s = .ok none := by
    rw [ClockTime.read?, if_neg (by simp [ClockTime.not_hasForm_of_head h hc hcolon hline])]
  rw [isValidTime, hread]
  rfl

/-- **No comment is a valid time.** -/
theorem isValidTime_of_hash {s : String} (h : s.toList.head? = some '#') :
    isValidTime s = .ok false :=
  isValidTime_of_head h (by decide) (by decide) (by decide)

/-! ## Comments that a directive takes -/

/-- What is trimmed lies between two valid times. -/
theorem isValidTime_of_validateTrim {bs : Bindings} {start stop : String}
    (hstart : bs.text "start" = .ok start) (hstop : bs.text "end" = .ok stop)
    (h : validateTrim bs = .ok .accepted) :
    isValidTime start = .ok true ∧ isValidTime stop = .ok true := by
  rw [validateTrim, hstart, hstop] at h
  -- an invalid time or a fault would not have been accepted
  rcases hs : isValidTime start with f | _ | _
  · simp [hs, bind, Except.bind] at h
  · simp [hs, bind, Except.bind, pure, Except.pure] at h
  · rcases he : isValidTime stop with f | _ | _
    · simp [hs, he, bind, Except.bind] at h
    · simp [hs, he, bind, Except.bind, pure, Except.pure] at h
    · exact ⟨rfl, rfl⟩

/-- **A directive that is accepted has no comment in it,** other than the file of an input. -/
theorem comment_of_walkFrom_done {p : Pattern Command} (hp : p ∈ directivePatterns)
    {ws : List String} {bs : Bindings} (h : p.walkFrom ws = .done bs (ws.length + 1))
    (haccepted : p.validate bs = .ok .accepted) {w : String} (hw : w ∈ ws)
    (hcomment : w.toList.head? = some '#') : p.name = "input" ∧ ws = [w] := by
  -- the walk passed all the texts, so the comment fits some slot
  have hslot : ∃ s ∈ p.ordered, s.shape.accepts w = true := by
    have hpassed := walk_passed (parts p.ordered) ws [] 1
    rw [← Pattern.walkFrom, h, Walk.stop, Nat.add_sub_cancel, List.take_length,
      flatMap_slots_parts] at hpassed
    exact hpassed w hw
  obtain ⟨s, hs, haccepts⟩ := hslot
  rcases name_of_accepts_comment hp hs hcomment haccepts with
    hname | hname
  · -- an input has one text, so the comment is all of it
    refine ⟨hname, ?_⟩
    obtain rfl : p = inputPattern := eq_of_name_eq hp (List.getElem_mem _) hname
    rcases ws with _ | ⟨t, ts⟩
    · cases hw
    · rw [walkFrom_input] at h
      split at h
      · obtain rfl : ts = [] := by
          have hused := (Walk.done.inj h).2
          simpa using hused
        rw [List.mem_singleton.1 hw]
      · cases h
  · -- a trim has two fixed words, and two times which were found to be valid
    obtain rfl : p = trimPattern := eq_of_name_eq hp (List.getElem_mem _) hname
    obtain ⟨start, stop, ts, rfl, -, -, rfl, hused⟩ := walkFrom_trim_done.1 h
    obtain rfl : ts = [] := by simpa using hused
    obtain ⟨hstart, hstop⟩ := isValidTime_of_validateTrim rfl rfl haccepted
    exfalso
    simp only [List.mem_cons, List.not_mem_nil, or_false] at hw
    rcases hw with rfl | rfl | rfl | rfl
    · exact absurd hcomment (by decide)
    · rw [isValidTime_of_hash hcomment] at hstart
      cases hstart
    · exact absurd hcomment (by decide)
    · rw [isValidTime_of_hash hcomment] at hstop
      cases hstop

/-! ## What a directive becomes -/

/-- The content of a comment. -/
def Command.comment? : Command → Option String
  | comment content => some content
  | _ => none

/-- A computation that gives nothing but what has some property. -/
def Gives {α : Type} (P : α → Prop) (x : Except Fault α) : Prop := ∀ a, x = .ok a → P a

namespace Gives

variable {α β : Type} {P : β → Prop}

theorem ok {b : β} (h : P b) : Gives P (.ok b) := by
  rintro _ ⟨⟩
  exact h

theorem bind {x : Except Fault α} {k : α → Except Fault β}
    (h : ∀ a, x = .ok a → Gives P (k a)) : Gives P (x >>= k) := by
  rcases x with f | a
  · rintro _ ⟨⟩
  · exact h a rfl

theorem map {x : Except Fault α} {k : α → β} (h : ∀ a, x = .ok a → P (k a)) :
    Gives P (x.map k) :=
  bind fun a ha => ok (h a ha)

end Gives

/-- **No directive becomes a comment.** -/
theorem create_noComment {p : Pattern Command} (hp : p ∈ directivePatterns) (bs : Bindings) :
    Gives (fun c => c.comment? = none) (p.create bs) := by
  simp only [directivePatterns, List.mem_cons, List.not_mem_nil, or_false] at hp
  rcases hp with rfl | rfl | rfl | rfl | rfl | rfl | rfl | rfl | rfl | rfl
  · exact .bind fun _ _ => .bind fun _ _ => .ok rfl
  · exact .bind fun _ _ => .ok rfl
  · exact .bind fun _ _ => .bind fun _ _ => .ok rfl
  · exact .bind fun _ _ => .ok rfl
  · exact .bind fun _ _ => .ok rfl
  · exact .bind fun _ _ => .bind fun _ _ => .bind fun _ _ => .ok rfl
  · exact .bind fun _ _ => .bind fun _ _ => .bind fun _ _ => .ok rfl
  · exact .bind fun _ _ => .bind fun _ _ => .bind fun _ _ => .ok rfl
  · exact .bind fun _ _ => .bind fun _ _ => .bind fun _ _ => .ok rfl
  · exact .bind fun _ _ => .bind fun _ _ => .bind fun _ _ => .bind fun _ _ => .bind fun _ _ =>
      .ok rfl

end ClipScript
