/-
# The slots of the directives

What the ten patterns have in common, checked once on their slots:

* they are well placed, and what they bind has a name of its own;
* the slots that need not be there come last, and take neither a keyword nor a
  comment, so a directive never runs over into the next one;
* a comment has the shape of a slot in two directives only: `input`, whose file may
  be any text with the right ending, and `trim`, whose times may be any text at all.
-/
import ClipScript.Directives
import ClipScript.Proofs.Matching.Parameters
import ClipScript.Script

set_option autoImplicit false

namespace ClipScript

instance (n : Nat) (slots : List Slot) : Decidable (Consecutive n slots) :=
  inferInstanceAs (Decidable (_ = _))

/-! ## Looking patterns up -/

/-- A pattern that is found is one of the language and has the keyword for its name. -/
theorem find?_directives {keyword : String} {p : Pattern Command}
    (h : directives.find? keyword = some p) : p ∈ directivePatterns ∧ p.name = keyword :=
  ⟨List.mem_of_find?_eq_some h, by simpa using List.find?_some h⟩

theorem hasKeyword_directives {text : String} :
    directives.hasKeyword text = true ↔ ∃ p, directives.find? text = some p := by
  rw [Registry.hasKeyword, Option.isSome_iff_exists]

/-! ## Well-placed and named -/

/-- **The patterns are well placed.** -/
theorem wellPlaced_directives : ∀ p ∈ directivePatterns, p.WellPlaced := by
  have h : ∀ p ∈ directivePatterns, Consecutive 1 p.ordered ∧ inOnePiece p.ordered = true := by
    decide
  intro p hp
  exact ⟨(h p hp).1, (h p hp).2⟩

/-- **Their parameters have names of their own,** and fallbacks where they need them. -/
theorem named_directives : ∀ p ∈ directivePatterns, p.Named := by
  have h : ∀ p ∈ directivePatterns, (p.ordered.filterMap Slot.parameter?).Nodup ∧
      ∀ s ∈ optionalSlots (parts p.ordered), s.parameter?.isSome → s.fallback.isSome := by
    decide +kernel
  intro p hp
  exact ⟨(h p hp).1, (h p hp).2⟩

/-- What a directive must have comes before what it need not have. -/
theorem required_directives : ∀ p ∈ directivePatterns,
    p.required = (parts p.ordered).countP Part.isRequired := by
  decide +kernel

/-! ## Comments and keywords in slots -/

/-- **A shape that no comment has.** -/
def Shape.RefusesComments (shape : Shape) : Prop :=
  ∀ text : String, text.toList.head? = some '#' → shape.accepts text = false

namespace Shape

/-- Nothing that starts with a number sign starts with a digit. -/
theorem isDigits_takeWhile_hash (cs : List Char) :
    Text.isDigits (('#' :: cs).takeWhile Text.isDigit) = false := by
  have h : Text.isDigit '#' = false := by decide
  simp [h, Text.isDigits]

theorem refusesComments_exactly {word : String} (h : word.toList.head? ≠ some '#') :
    (exactly word).RefusesComments := by
  intro text htext
  have hne : text ≠ word := fun heq => h (heq ▸ htext)
  simpa [exactly] using hne

theorem refusesComments_oneOf {words : List String}
    (h : ∀ w ∈ words, w.toList.head? ≠ some '#') : (oneOf words).RefusesComments := by
  intro text htext
  have hnot : text ∉ words := fun hmem => h text hmem htext
  simpa [oneOf] using hnot

theorem refusesComments_quotedLine : quotedLine.RefusesComments := by
  intro text htext
  simp [quotedLine, htext]

theorem refusesComments_digits : digits.RefusesComments := by
  intro text htext
  obtain ⟨cs, hcs⟩ := List.head?_eq_some_iff.1 htext
  have hd : Text.isDigit '#' = false := by decide
  simp [digits, hcs, Text.isDigits, hd]

theorem refusesComments_pixels : pixels.RefusesComments := by
  intro text htext
  obtain ⟨cs, hcs⟩ := List.head?_eq_some_iff.1 htext
  simp [pixels, isDigitsThen, hcs, isDigits_takeWhile_hash]

theorem refusesComments_dimensions : dimensions.RefusesComments := by
  intro text htext
  obtain ⟨cs, hcs⟩ := List.head?_eq_some_iff.1 htext
  simp [dimensions, hcs, isDigits_takeWhile_hash]

theorem refusesComments_seconds : seconds.RefusesComments := by
  intro text htext
  obtain ⟨cs, hcs⟩ := List.head?_eq_some_iff.1 htext
  simp [seconds, hcs, isDigits_takeWhile_hash]

end Shape

/-- **Only two directives have slots for comments.** -/
theorem refusesComments_directives : ∀ p ∈ directivePatterns,
    p.name = "input" ∨ p.name = "trim" ∨ ∀ s ∈ p.slots, s.shape.RefusesComments := by
  simp (disch := decide) only [directivePatterns, List.forall_mem_cons, List.not_mem_nil,
    false_implies, implies_true, and_true, Shape.refusesComments_exactly,
    Shape.refusesComments_oneOf, Shape.refusesComments_quotedLine, Shape.refusesComments_digits,
    Shape.refusesComments_pixels, Shape.refusesComments_dimensions,
    Shape.refusesComments_seconds, or_true, true_or]

/-- The directives with a slot that a comment fits. -/
theorem name_of_accepts_comment {p : Pattern Command} (hp : p ∈ directivePatterns) {s : Slot}
    (hs : s ∈ p.ordered) {text : String} (htext : text.toList.head? = some '#')
    (h : s.shape.accepts text = true) : p.name = "input" ∨ p.name = "trim" := by
  rcases refusesComments_directives p hp with hname | hname | hrefuses
  · exact .inl hname
  · exact .inr hname
  · rw [hrefuses s (Pattern.mem_ordered.1 hs) text htext] at h
    cases h

/-- **No optional slot takes what starts a directive or a comment.** -/
theorem optional_rejects_start {p : Pattern Command} (hp : p ∈ directivePatterns) {s : Slot}
    (hs : s ∈ optionalSlots (parts p.ordered)) {t : Token} (ht : directives.starts t = true) :
    s.shape.accepts t.text = false := by
  have hrequired : ∀ p ∈ directivePatterns, p.name = "input" ∨ p.name = "trim" →
      optionalSlots (parts p.ordered) = [] := by
    decide +kernel
  have hkeyword : ∀ p ∈ directivePatterns, ∀ s ∈ optionalSlots (parts p.ordered),
      ∀ q ∈ directivePatterns, s.shape.accepts q.name = false := by
    decide +kernel
  rw [Registry.starts, Bool.or_eq_true] at ht
  rcases ht with ht | ht
  · -- a comment fits slots of two directives only, and neither has optional ones
    cases ha : s.shape.accepts t.text with
    | false => rfl
    | true =>
      have hname := name_of_accepts_comment hp (mem_of_mem_optionalSlots hs)
        (by simpa [Token.isComment] using ht) ha
      rw [hrequired p hp hname] at hs
      cases hs
  · -- a keyword would need a slot that takes one, and no optional one does
    obtain ⟨q, hq⟩ := hasKeyword_directives.1 ht
    obtain ⟨hmem, hname⟩ := find?_directives hq
    rw [← hname]
    exact hkeyword p hp s hs q hmem

end ClipScript
