/-
# Computations that fail

A computation that can fail is described from two sides: by the faults that are the only
ones it fails with (`FailsOnly`), and by whether it does fail with a fault of some kind
(`FailsWith`). Both pass through binds, so a function that takes one step after another
is described from what is known of its steps.

Two computations are compared by what they come to (`Agree`): the same fault, or results
that are related. That too passes through binds.
-/
import ClipScript.Fault

set_option autoImplicit false

namespace ClipScript

theorem bind_eq_ok {α β : Type} {x : Except Fault α} {k : α → Except Fault β} {b : β} :
    x >>= k = .ok b ↔ ∃ a, x = .ok a ∧ k a = .ok b := by
  rcases x with f | a
  · exact ⟨by rintro ⟨⟩, by rintro ⟨_, ⟨⟩, _⟩⟩
  · exact ⟨fun h => ⟨a, rfl, h⟩, fun ⟨_, ha, h⟩ => Except.ok.inj ha ▸ h⟩

/-- Computations with the same first step are the same if they go on alike from its result. -/
theorem bind_congr_ok {ε α β : Type} {x y : Except ε α} {k l : α → Except ε β} (hxy : x = y)
    (hkl : ∀ a, y = .ok a → k a = l a) : x >>= k = y >>= l := by
  subst hxy
  rcases x with f | a
  · rfl
  · exact hkl a rfl

/-- A computation that comes to something of which a part is known. -/
theorem exists_ok_of_map {ε α β : Type} {x : Except ε α} {k : α → β} {b : β}
    (h : x.toOption.map k = some b) : ∃ a, x = .ok a ∧ k a = b := by
  rcases x with f | a
  · cases h
  · exact ⟨a, rfl, Option.some.inj h⟩

/-! ## Computations that only fail for some faults -/

/-- A computation that fails with nothing but faults that have some property. -/
def FailsOnly {ε α : Type} (P : ε → Prop) (x : Except ε α) : Prop := ∀ f, x = .error f → P f

namespace FailsOnly

variable {ε α β : Type} {P Q : ε → Prop}

theorem ok {a : α} : FailsOnly P (.ok a) := by
  rintro _ ⟨⟩

theorem error {f : ε} (h : P f) : FailsOnly P (.error f : Except ε α) := by
  rintro _ ⟨⟩
  exact h

theorem mono {x : Except ε α} (h : FailsOnly P x) (hPQ : ∀ f, P f → Q f) : FailsOnly Q x :=
  fun f hf => hPQ f (h f hf)

theorem bind {x : Except ε α} {k : α → Except ε β} (hx : FailsOnly P x)
    (hk : ∀ a, x = .ok a → FailsOnly P (k a)) : FailsOnly P (x >>= k) := by
  rcases x with f | a
  · rintro _ ⟨⟩
    exact hx f rfl
  · exact hk a rfl

theorem map {x : Except ε α} {k : α → β} (hx : FailsOnly P x) : FailsOnly P (x.map k) := by
  rcases x with f | a
  · rintro _ ⟨⟩
    exact hx f rfl
  · exact ok

end FailsOnly

/-! ## Computations that fail for some fault -/

/-- A computation that fails, with a fault that has some property. -/
def FailsWith {ε α : Type} (P : ε → Prop) (x : Except ε α) : Prop := ∃ f, x = .error f ∧ P f

section

variable {ε α β : Type} {P : ε → Prop}

@[simp] theorem not_failsWith_ok {a : α} : ¬ FailsWith P (.ok a) := by
  rintro ⟨f, hf, -⟩
  cases hf

@[simp] theorem failsWith_error {f : ε} : FailsWith P (.error f : Except ε α) ↔ P f := by
  constructor
  · rintro ⟨g, hg, hP⟩
    rwa [Except.error.inj hg]
  · exact fun h => ⟨f, rfl, h⟩

/-- **One step after another** fails in the first, or else in the second. -/
theorem failsWith_bind {x : Except ε α} {k : α → Except ε β} :
    FailsWith P (x >>= k) ↔ FailsWith P x ∨ ∃ a, x = .ok a ∧ FailsWith P (k a) := by
  rcases x with f | a
  · constructor
    · rintro ⟨g, hg, hP⟩
      exact .inl ⟨f, rfl, Except.error.inj hg ▸ hP⟩
    · rintro (h | ⟨a, ha, -⟩)
      · exact ⟨f, rfl, failsWith_error.1 h⟩
      · cases ha
  · constructor
    · exact fun h => .inr ⟨a, rfl, h⟩
    · rintro (⟨f, hf, -⟩ | ⟨b, hb, h⟩)
      · cases hf
      · exact Except.ok.inj hb ▸ h

theorem failsWith_map {x : Except ε α} {k : α → β} :
    FailsWith P (x.map k) ↔ FailsWith P x := by
  rcases x with f | a
  · exact ⟨fun ⟨g, hg, hP⟩ => ⟨f, rfl, Except.error.inj hg ▸ hP⟩,
      fun h => ⟨f, rfl, failsWith_error.1 h⟩⟩
  · exact ⟨by rintro ⟨_, ⟨⟩, _⟩, by rintro ⟨_, ⟨⟩, _⟩⟩

theorem FailsOnly.not_failsWith {Q : ε → Prop} {x : Except ε α} (h : FailsOnly Q x)
    (hPQ : ∀ f, Q f → ¬ P f) : ¬ FailsWith P x := by
  rintro ⟨f, hf, hP⟩
  exact hPQ f (h f hf) hP

end

/-! ## Computations that fail at all -/

/-- A computation that fails. -/
def Fails {ε α : Type} (x : Except ε α) : Prop := ∃ f, x = .error f

section

variable {ε α β : Type}

@[simp] theorem not_fails_ok {a : α} : ¬ Fails (.ok a : Except ε α) := by
  rintro ⟨f, hf⟩
  cases hf

@[simp] theorem fails_error {f : ε} : Fails (.error f : Except ε α) := ⟨f, rfl⟩

theorem fails_bind {x : Except ε α} {k : α → Except ε β} :
    Fails (x >>= k) ↔ Fails x ∨ ∃ a, x = .ok a ∧ Fails (k a) := by
  rcases x with f | a
  · exact ⟨fun _ => .inl fails_error, fun _ => fails_error⟩
  · constructor
    · exact fun h => .inr ⟨a, rfl, h⟩
    · rintro (h | ⟨b, hb, h⟩)
      · exact absurd h not_fails_ok
      · exact Except.ok.inj hb ▸ h

/-- **One step after another** that fails whatever the first comes to, or never. -/
theorem fails_bind_of_forall {x : Except ε α} {k : α → Except ε β} {Q : Prop}
    (hk : ∀ a, x = .ok a → (Fails (k a) ↔ Q)) : Fails (x >>= k) ↔ Fails x ∨ Q := by
  rcases x with f | a
  · exact ⟨fun _ => .inl fails_error, fun _ => fails_error⟩
  · exact (hk a rfl).trans ⟨.inr, fun h => h.resolve_left not_fails_ok⟩

theorem fails_map {x : Except ε α} {k : α → β} : Fails (x.map k) ↔ Fails x := by
  rcases x with f | a
  · exact ⟨fun _ => fails_error, fun _ => fails_error⟩
  · exact ⟨fun h => absurd h not_fails_ok, fun h => absurd h not_fails_ok⟩

theorem not_fails_iff {x : Except ε α} : ¬ Fails x ↔ ∃ a, x = .ok a := by
  rcases x with f | a
  · exact ⟨fun h => absurd fails_error h, by rintro ⟨_, ⟨⟩⟩⟩
  · exact ⟨fun _ => ⟨a, rfl⟩, fun _ => not_fails_ok⟩

end

/-! ## Two computations -/

/-- **Two computations that agree:** they fail with the same fault, or come to results that are
related. -/
inductive Agree {ε α β : Type} (R : α → β → Prop) : Except ε α → Except ε β → Prop where
  | fails (f : ε) : Agree R (.error f) (.error f)
  | ok {a : α} {b : β} (related : R a b) : Agree R (.ok a) (.ok b)

namespace Agree

variable {ε α β γ δ : Type} {R : α → β → Prop} {S : γ → δ → Prop}

/-- A computation agrees with itself on results that are related to themselves. -/
theorem refl {R : α → α → Prop} {x : Except ε α} (h : ∀ a, x = .ok a → R a a) : Agree R x x := by
  cases x with
  | error f => exact .fails f
  | ok a => exact .ok (h a rfl)

theorem bind {x : Except ε α} {y : Except ε β} {k : α → Except ε γ} {l : β → Except ε δ}
    (h : Agree R x y) (hkl : ∀ a b, x = .ok a → y = .ok b → R a b → Agree S (k a) (l b)) :
    Agree S (x >>= k) (y >>= l) := by
  cases h with
  | fails f => exact .fails f
  | ok related => exact hkl _ _ rfl rfl related

theorem map {x : Except ε α} {y : Except ε β} {k : α → γ} {l : β → δ} (h : Agree R x y)
    (hkl : ∀ a b, R a b → S (k a) (l b)) : Agree S (x.map k) (y.map l) := by
  cases h with
  | fails f => exact .fails f
  | ok related => exact .ok (hkl _ _ related)

theorem related {a : α} {b : β} (h : Agree R (.ok a : Except ε α) (.ok b)) : R a b := by
  cases h with
  | ok related => exact related

end Agree

end ClipScript
