/-
# What directives read

The condition and the constructor of a pattern read the parameters that its slots bind, and
no others (`readsNamed_directives`). What they read has been bound to a text with the shape
of its slot, or to the fallback of the slot, so all that can be in the way is a numeral that
is too long. With short numerals both come to a result (`reads_of_walkFrom`): the constructor
too, even for parameters that the condition refuses.
-/
import ClipScript.Proofs.Directives.Faults
import ClipScript.Proofs.Failing

set_option autoImplicit false

namespace ClipScript

open Number

/-! ## Parameters that are read -/

/-- **A pattern that reads what its slots bind,** and nothing else. -/
def Pattern.ReadsNamed {α : Type} (p : Pattern α) : Prop :=
  ∀ bs bs' : Bindings,
    (∀ s ∈ p.slots, ∀ name, s.parameter? = some name → bs.text name = bs'.text name) →
    p.validate bs = p.validate bs' ∧ p.create bs = p.create bs'

/-- **The patterns read what their slots bind.** -/
theorem readsNamed_directives : ∀ p ∈ directivePatterns, p.ReadsNamed := by
  intro p hp bs bs' h
  have read : ∀ name s, p.slots.find? (fun s => s.parameter? == some name) = some s →
      bs.text name = bs'.text name := by
    intro name s hs
    exact h s (List.mem_of_find?_eq_some hs) name (by simpa using List.find?_some hs)
  simp only [directivePatterns, List.mem_cons, List.not_mem_nil, or_false] at hp
  rcases hp with rfl | rfl | rfl | rfl | rfl | rfl | rfl | rfl | rfl | rfl
  · -- remove_frames
    have hcycle := read "cycle" _ rfl
    simp only [validateCycle, hcycle, and_self]
  · -- input
    have hfile := read "file" _ rfl
    simp only [createInput, hfile, and_self]
  · -- trim
    have hstart := read "start" _ rfl
    have hstop := read "end" _ rfl
    simp only [validateTrim, hstart, hstop, and_self]
  · -- convert
    have hformat := read "format" _ rfl
    simp only [hformat, and_self]
  · -- compress
    have hstream := read "stream" _ rfl
    simp only [hstream, and_self]
  · -- scale
    have hsize := read "size" _ rfl
    have haspect := read "aspect" _ rfl
    simp only [validateSize, createScale, hsize, haspect, and_self]
  · -- crop
    have hpixels := read "pixels" _ rfl
    have hside := read "side" _ rfl
    simp only [createCrop, hpixels, hside, and_self]
  · -- fade
    have hdirection := read "direction" _ rfl
    have hduration := read "duration" _ rfl
    simp only [createFade, hdirection, hduration, and_self]
  · -- burn
    have hkind := read "kind" _ rfl
    have hcontent := read "content" _ rfl
    have hplace := read "place" _ rfl
    simp only [validateBurn, createBurn, hkind, hcontent, hplace, and_self]
  · -- add_text
    have htext := read "text" _ rfl
    have hplace := read "place" _ rfl
    have halignment := read "alignment" _ rfl
    have hmargin := read "margin" _ rfl
    simp only [createCaption, htext, hplace, halignment, hmargin, and_self]

/-! ## Short numerals -/

variable {p : Pattern Command} {texts : List String} {bs : Bindings} {used : Nat}

/-- What a pattern refuses it could make something of, if its numerals are short. -/
theorem create_of_refused (hp : p ∈ directivePatterns) (h : p.walkFrom texts = .done bs used)
    (hshort : ∀ w ∈ texts, ShortNumerals w.toList) {detail : Option String}
    (hrefused : p.validate bs = .ok (.refused detail)) : ∃ c, p.create bs = .ok c := by
  have read := @text_of_walkFrom_required p texts bs used hp h
  simp only [directivePatterns, List.mem_cons, List.not_mem_nil, or_false] at hp
  rcases hp with rfl | rfl | rfl | rfl | rfl | rfl | rfl | rfl | rfl | rfl
  · -- remove_frames
    obtain ⟨cycle, after, rfl, hcycle, rfl, -⟩ := walkFrom_removeFrames.1 h
    have hread := (readInt_failsFor hcycle).ok_of_not fun n hn =>
      hn.not_short (List.infix_refl _) (hshort cycle (by simp))
    obtain ⟨k, hk⟩ := hread
    rw [String.ofList_toList] at hk
    refine ⟨.deduplicate k, ?_⟩
    show (readInt cycle >>= fun k => Except.ok (Command.deduplicate k)) = _
    rw [hk]
    rfl
  · cases hrefused
  · -- trim
    obtain ⟨start, stop, after, rfl, -, -, rfl, -⟩ := walkFrom_trim_done.1 h
    exact ⟨.trim start stop, rfl⟩
  · cases hrefused
  · cases hrefused
  · -- scale
    obtain ⟨size, aspect, after, rfl, hsize, -, rfl, -⟩ := walkFrom_scale.1 h
    obtain ⟨⟨w, d⟩, hwd⟩ := (readSize_failsFor hsize).ok_of_not fun n hn =>
      hn.not_short (hshort size (by simp))
    refine ⟨.scale w d (.ofText aspect), ?_⟩
    show (readSize size >>= _) = _
    rw [hwd]
    rfl
  · cases hrefused
  · cases hrefused
  · -- burn
    obtain ⟨kind, -, hkind⟩ := @read "kind" _ rfl rfl
    obtain ⟨content, -, hcontent⟩ := @read "content" _ rfl rfl
    obtain ⟨place, -, hplace⟩ := @read "place" _ rfl rfl
    show ∃ c, createBurn bs = .ok c
    rw [createBurn, hkind, hcontent, hplace]
    exact ⟨_, rfl⟩
  · cases hrefused

/-- **The condition and the constructor come to a result** for what the slots let through, if its
numerals are short. -/
theorem reads_of_walkFrom (hp : p ∈ directivePatterns) (h : p.walkFrom texts = .done bs used)
    (hshort : ∀ w ∈ p.name :: texts, ShortNumerals w.toList) :
    (∃ verdict, p.validate bs = .ok verdict) ∧ ∃ c, p.create bs = .ok c := by
  obtain ⟨made, hmade⟩ := (make_failsFor hp h).ok_of_not (not_overruns hshort)
  obtain ⟨verdict, hverdict, hrest⟩ := bind_eq_ok.1 hmade
  refine ⟨⟨verdict, hverdict⟩, ?_⟩
  cases verdict with
  | accepted =>
    obtain ⟨c, hc, -⟩ := bind_eq_ok.1 hrest
    exact ⟨c, hc⟩
  | refused detail =>
    exact create_of_refused hp h (fun w hw => hshort w (List.mem_cons_of_mem _ hw)) hverdict

end ClipScript
