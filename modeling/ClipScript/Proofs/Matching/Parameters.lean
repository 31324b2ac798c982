/-
# The parameters of a directive

A walk binds every slot in order: a required slot to the text it took, and the slots
of a group either to the texts they took or to their fallbacks. So the bindings at the
end are a list of pairs of a slot and a value, one for each slot (`walk_bindings`).

When no two slots have one name, the value of each name is the one of its slot, and
what a condition or a constructor reads from the bindings is known from the shape of
the slot alone (`walkFrom_text`).
-/
import ClipScript.Proofs.Matching.Outcome

set_option autoImplicit false

namespace ClipScript

/-! ## Looking names up -/

namespace Bindings

theorem text_bind_self (bs : Bindings) (name value : String) :
    (bs.bind name (some value)).text name = .ok value := by
  induction bs with
  | nil => simp [bind, text]
  | cons b bs ih =>
    unfold bind
    by_cases hb : b.1 = name
    · simp [hb, text]
    · rw [if_neg hb]
      simpa [text, hb] using ih

theorem text_bind_of_ne (bs : Bindings) {name other : String} (value : Option String)
    (h : name ≠ other) : (bs.bind name value).text other = bs.text other := by
  induction bs with
  | nil => simp [bind, text, h]
  | cons b bs ih =>
    unfold bind
    by_cases hb : b.1 = name
    · simp [hb, text, h]
    · rw [if_neg hb]
      by_cases hbo : b.1 = other
      · simp [text, hbo]
      · simpa [text, hbo] using ih

/-- The bindings after some slots were bound to values. -/
def bindAll (pairs : List (Slot × Option String)) (bs : Bindings) : Bindings :=
  pairs.foldl (fun bs x => bs.bind? x.1.parameter? x.2) bs

/-- Slots without a certain name do not change its text. -/
theorem text_bindAll_of_forall_ne (pairs : List (Slot × Option String)) (bs : Bindings)
    {name : String} (h : ∀ x ∈ pairs, x.1.parameter? ≠ some name) :
    (bindAll pairs bs).text name = bs.text name := by
  induction pairs generalizing bs with
  | nil => rfl
  | cons x pairs ih =>
    have hx := h x (by simp)
    rw [bindAll, List.foldl_cons, ← bindAll, ih _ fun y hy => h y (by simp [hy])]
    cases hn : x.1.parameter? with
    | none => rfl
    | some n => exact text_bind_of_ne bs x.2 fun e => hx (by rw [hn, e])

/-- **A name has the text of its slot,** when no two slots share it. -/
theorem text_bindAll (pairs : List (Slot × Option String)) (bs : Bindings)
    (hnodup : ((pairs.map Prod.fst).filterMap Slot.parameter?).Nodup)
    {s : Slot} {name value : String}
    (hmem : (s, some value) ∈ pairs) (hname : s.parameter? = some name) :
    (bindAll pairs bs).text name = .ok value := by
  induction pairs generalizing bs with
  | nil => cases hmem
  | cons x pairs ih =>
    rw [bindAll, List.foldl_cons, ← bindAll]
    rw [List.map_cons] at hnodup
    rcases List.mem_cons.1 hmem with rfl | hmem
    · -- no later slot has the name, so the text that was bound first stays
      have hfresh : ∀ y ∈ pairs, y.1.parameter? ≠ some name := by
        intro y hy hyn
        rw [List.filterMap_cons_some hname, List.nodup_cons] at hnodup
        exact hnodup.1 (List.mem_filterMap.2 ⟨y.1, List.mem_map_of_mem hy, hyn⟩)
      rw [text_bindAll_of_forall_ne pairs _ hfresh, hname]
      exact text_bind_self bs name value
    · -- the pair is further on, where the names differ from each other as well
      refine ih _ ?_ hmem
      cases hx : x.1.parameter? with
      | none => rwa [List.filterMap_cons_none hx] at hnodup
      | some n =>
        rw [List.filterMap_cons_some hx, List.nodup_cons] at hnodup
        exact hnodup.2

end Bindings

/-! ## What a walk binds -/

/-- A group that is there binds each slot to a text of its shape. -/
theorem bindTexts_eq {g : List Slot} {ts : List String} (h : fits g ts = true) (bs : Bindings) :
    ∃ pairs : List (Slot × Option String), bindTexts g ts bs = Bindings.bindAll pairs bs ∧
      pairs.map Prod.fst = g ∧
      ∀ x ∈ pairs, ∃ t ∈ ts, x.1.shape.accepts t = true ∧ x.2 = some t := by
  induction g generalizing ts bs with
  | nil => exact ⟨[], by cases ts <;> rfl, rfl, by simp⟩
  | cons s g ih =>
    cases ts with
    | nil => cases h
    | cons t ts =>
      obtain ⟨ha, hg⟩ := Bool.and_eq_true_iff.1 h
      obtain ⟨pairs, hbind, hslots, hpairs⟩ := ih hg (bs.bind? s.parameter? (some t))
      refine ⟨(s, some t) :: pairs, by rw [bindTexts, hbind]; rfl, by simp [hslots], ?_⟩
      intro x hx
      rcases List.mem_cons.1 hx with rfl | hx
      · exact ⟨t, by simp, ha, rfl⟩
      · obtain ⟨t', ht', hx'⟩ := hpairs x hx
        exact ⟨t', by simp [ht'], hx'⟩

theorem bindFallbacks_eq (g : List Slot) (bs : Bindings) :
    bindFallbacks g bs = Bindings.bindAll (g.map fun s => (s, s.fallback)) bs := by
  rw [bindFallbacks, Bindings.bindAll, List.foldl_map]

/-- **What a walk binds:** every slot in order, to a text of its shape; or to its fallback, if
it is optional. -/
theorem walk_bindings {ps : List Part} {ts : List String} {bs bs' : Bindings} {c u : Nat}
    (h : walk ps ts bs c = .done bs' u) :
    ∃ pairs : List (Slot × Option String), bs' = Bindings.bindAll pairs bs ∧
      pairs.map Prod.fst = ps.flatMap Part.slots ∧
      ∀ x ∈ pairs, (∃ t ∈ ts, x.1.shape.accepts t = true ∧ x.2 = some t) ∨
        (x.1 ∈ optionalSlots ps ∧ x.2 = x.1.fallback) := by
  induction ps, ts, bs, c using walk.induct with
  | case1 ts bs c =>
    simp only [walk, Walk.done.injEq] at h
    exact ⟨[], h.1.symm, rfl, by simp⟩
  | case2 s ps bs c => cases h
  | case3 s ps t ts bs c ha ih =>
    rw [walk, if_pos ha] at h
    obtain ⟨pairs, hbind, hslots, hpairs⟩ := ih h
    refine ⟨(s, some t) :: pairs, hbind, by simp [hslots, Part.slots], ?_⟩
    intro x hx
    -- the slot has the text it took, and the others what the rest of the walk binds
    rcases List.mem_cons.1 hx with rfl | hx
    · exact .inl ⟨t, by simp, ha, rfl⟩
    · rcases hpairs x hx with ⟨t', ht', hx'⟩ | hx'
      · exact .inl ⟨t', by simp [ht'], hx'⟩
      · exact .inr ⟨List.mem_append_right _ hx'.1, hx'.2⟩
  | case4 s ps t ts bs c ha => simp [walk, ha] at h
  | case5 s ss ps ts bs c hfit ih =>
    rw [walk, if_pos hfit] at h
    obtain ⟨first, hfirst, hgroup, htexts⟩ := bindTexts_eq hfit bs
    obtain ⟨pairs, hbind, hslots, hpairs⟩ := ih h
    -- a group that fits puts its own pairs in front
    refine ⟨first ++ pairs, ?_, by simp [hslots, hgroup, Part.slots], ?_⟩
    · rw [hbind, hfirst, Bindings.bindAll, Bindings.bindAll, Bindings.bindAll, List.foldl_append]
    · intro x hx
      rcases List.mem_append.1 hx with hx | hx
      · exact .inl (htexts x hx)
      · rcases hpairs x hx with ⟨t', ht', hx'⟩ | hx'
        · exact .inl ⟨t', List.mem_of_mem_drop ht', hx'⟩
        · exact .inr ⟨List.mem_append_right _ hx'.1, hx'.2⟩
  | case6 s ss ps ts bs c hfit ih =>
    rw [walk, if_neg hfit] at h
    obtain ⟨pairs, hbind, hslots, hpairs⟩ := ih h
    -- a group that stays behind puts its fallbacks in front
    refine ⟨(s :: ss).map (fun s => (s, s.fallback)) ++ pairs, ?_, ?_, ?_⟩
    · rw [hbind, bindFallbacks_eq, Bindings.bindAll, Bindings.bindAll, Bindings.bindAll,
        List.foldl_append]
    · simp [hslots, Part.slots, Function.comp_def]
    · intro x hx
      rcases List.mem_append.1 hx with hx | hx
      · obtain ⟨s', hs', rfl⟩ := List.mem_map.1 hx
        exact .inr ⟨List.mem_append_left _ hs', rfl⟩
      · rcases hpairs x hx with hx' | hx'
        · exact .inl hx'
        · exact .inr ⟨List.mem_append_right _ hx'.1, hx'.2⟩

/-! ## Named slots -/

variable {α : Type}

/-- **Named:** no two slots have one name, and one that need not be there has a fallback. -/
structure Pattern.Named (p : Pattern α) : Prop where
  nodup : (p.ordered.filterMap Slot.parameter?).Nodup
  fallback : ∀ s ∈ optionalSlots (parts p.ordered), s.parameter?.isSome → s.fallback.isSome

/-- **What is read under a name:** a text of the directive that has the shape of the slot, or
the fallback of the slot. -/
theorem walkFrom_text {p : Pattern α} (hp : p.Named) {ts : List String} {bs : Bindings} {u : Nat}
    (h : p.walkFrom ts = .done bs u) {s : Slot} (hs : s ∈ p.slots) {name : String}
    (hname : s.parameter? = some name) :
    ∃ v, bs.text name = .ok v ∧ ((v ∈ ts ∧ s.shape.accepts v = true) ∨ s.fallback = some v) := by
  obtain ⟨pairs, rfl, hslots, hpairs⟩ := walk_bindings h
  rw [flatMap_slots_parts] at hslots
  have hnodup : ((pairs.map Prod.fst).filterMap Slot.parameter?).Nodup := by
    rw [hslots]
    exact hp.nodup
  -- there is a pair for every slot, so there is one for this slot
  have hmem : s ∈ pairs.map Prod.fst := by
    rw [hslots]
    exact Pattern.mem_ordered.2 hs
  obtain ⟨⟨s', value⟩, hx, hs'⟩ := List.mem_map.1 hmem
  obtain rfl : s' = s := hs'
  -- its value is a text that was taken, or the fallback that an optional slot with a name has
  rcases hpairs _ hx with ⟨t, ht, ha, hv⟩ | ⟨hopt, hv⟩
  · obtain rfl : value = some t := hv
    exact ⟨t, Bindings.text_bindAll pairs [] hnodup hx hname, .inl ⟨ht, ha⟩⟩
  · obtain rfl : value = s'.fallback := hv
    obtain ⟨v, hv⟩ := Option.isSome_iff_exists.1 (hp.fallback s' hopt (by simp [hname]))
    rw [hv] at hx
    exact ⟨v, Bindings.text_bindAll pairs [] hnodup hx hname, .inr hv⟩

end ClipScript
