/-
# Where matching looks

Matching looks tokens up by their position in the window. The position of a slot is one
for the pattern with all its slots, and what was passed over is taken off it, so a lookup
could be asked for a negative position, which counts from the end, or for one behind the
window, which is a fault. In a directive that is complete neither happens.

To say so, matching is written with the lookup left open (`bindSlotsBy`); looking tokens
up with `tokenAt`, it is matching (`bindSlotsBy_tokenAt`). It comes to the same with any
two lookups that agree within the window (`bindSlotsBy_congr`), whatever they answer
elsewhere, even if they fail there. What carries this through the slots is that the
next of them has a position that is not below the number of slots passed over.
-/
import ClipScript.Proofs.Failing
import ClipScript.Proofs.Matching.Outcome

set_option autoImplicit false

namespace ClipScript

/-! ## Matching with a lookup -/

section

variable (look : Int → Except Fault Token) (length : Nat)

/-- Whether every slot of a group has its token, in a window of some length. -/
def groupPresentBy (p : Progress) : List Slot → Except Fault Bool
  | [] => .ok true
  | s :: ss =>
    if p.place s < length then do
      let t ← look (p.place s)
      if s.shape.accepts t.text then groupPresentBy p ss else .ok false
    else .ok false

/-- The parameters of a group: its tokens if it is there, else its fallbacks. -/
def bindGroupBy (p : Progress) (present : Bool) : List Slot → Bindings → Except Fault Bindings
  | [], bs => .ok bs
  | s :: ss, bs =>
    match s.parameter?, present with
    | none, _ => bindGroupBy p present ss bs
    | some name, false => bindGroupBy p present ss (bs.bind name s.fallback)
    | some name, true => do
      let t ← look (p.place s)
      bindGroupBy p present ss (bs.bind name (some t.text))

/-- **Matching slots** in order, with a lookup of tokens. -/
def bindSlotsBy : List Slot → Progress → Except Fault Binding
  | [], p => .ok (.bound p.bindings p.used)
  | s :: ss, p =>
    if s.optional then do
      let group := groupOf s ss
      let present ← groupPresentBy look length p group
      let bindings ← bindGroupBy look p present group p.bindings
      let p' : Progress :=
        if present then { p with bindings, used := p.through (lastPlace p s group) }
        else { p with bindings, skipped := p.skipped + group.length }
      bindSlotsBy (ss.drop (group.length - 1)) p'
    else do
      let t ← look (p.place s)
      if s.shape.accepts t.text then
        bindSlotsBy ss
          { p with
            bindings := p.bindings.bind? s.parameter? (some t.text), used := p.through (p.place s) }
      else .ok (.mismatch t (p.place s))
termination_by ss => ss.length
decreasing_by all_goals (simp; try omega)

end

/-! ## It is matching -/

variable {window : List Token}

theorem groupPresentBy_tokenAt (window : List Token) (p : Progress) (g : List Slot) :
    groupPresentBy (tokenAt window) window.length p g = groupPresent window p g := by
  induction g with
  | nil => rfl
  | cons s g ih => rw [groupPresentBy, groupPresent, ih]

theorem bindGroupBy_tokenAt (window : List Token) (p : Progress) (present : Bool) (g : List Slot)
    (bs : Bindings) :
    bindGroupBy (tokenAt window) p present g bs = bindGroup window p present g bs := by
  induction g generalizing bs with
  | nil => rfl
  | cons s g ih =>
    unfold bindGroupBy bindGroup
    cases s.parameter? with
    | none => exact ih bs
    | some name =>
      cases present with
      | false => exact ih _
      | true => exact bind_congr_ok rfl fun _ _ => ih _

/-- **Matching with `tokenAt`** is matching in the window. -/
theorem bindSlotsBy_tokenAt (window : List Token) (slots : List Slot) (p : Progress) :
    bindSlotsBy (tokenAt window) window.length slots p = bindSlots window slots p := by
  induction hlen : slots.length using Nat.strongRecOn generalizing slots p with
  | ind length ih =>
    subst hlen
    cases slots with
    | nil => rw [bindSlotsBy, bindSlots]
    | cons s ss =>
      have hss : ∀ k p, bindSlotsBy (tokenAt window) window.length (ss.drop k) p =
          bindSlots window (ss.drop k) p := by
        intro k p
        apply ih _ _ (ss.drop k) p rfl
        rw [List.length_drop, List.length_cons]
        omega
      have hnext := hss 0
      rw [List.drop_zero] at hnext
      rw [bindSlotsBy, bindSlots]
      simp only [groupPresentBy_tokenAt, bindGroupBy_tokenAt, hss, hnext]

/-! ## Lookups that agree -/

variable {look look' : Int → Except Fault Token} {n : Nat} {p : Progress}

/-- A place that is not negative and in the window. -/
theorem look_place (hlook : ∀ i : Nat, i < n → look i = look' i) {s : Slot}
    (hpos : p.skipped ≤ s.position) (hin : p.place s < n) :
    look (p.place s) = look' (p.place s) := by
  have hplace : p.place s = (s.position - p.skipped : Nat) := by
    rw [Progress.place]
    omega
  rw [hplace] at hin ⊢
  exact hlook _ (Int.ofNat_lt.1 hin)

/-- A slot of a group is only looked for where there is a token. -/
theorem groupPresentBy_congr (hlook : ∀ i : Nat, i < n → look i = look' i) {g : List Slot}
    (hpos : ∀ s ∈ g, p.skipped ≤ s.position) :
    groupPresentBy look n p g = groupPresentBy look' n p g := by
  induction g with
  | nil => rfl
  | cons s g ih =>
    rw [groupPresentBy, groupPresentBy]
    by_cases hin : p.place s < n
    · rw [if_pos hin, if_pos hin, look_place hlook (hpos s List.mem_cons_self) hin,
        ih fun s' hs' => hpos s' (List.mem_cons_of_mem _ hs')]
    · rw [if_neg hin, if_neg hin]

/-- A group that is present has all its places in the window. -/
theorem place_of_groupPresentBy {g : List Slot} (h : groupPresentBy look n p g = .ok true) :
    ∀ s ∈ g, p.place s < n := by
  induction g with
  | nil => simp
  | cons s g ih =>
    rw [groupPresentBy] at h
    by_cases hin : p.place s < n
    · rw [if_pos hin] at h
      have hrest : groupPresentBy look n p g = .ok true := by
        cases hl : look (p.place s) with
        | error f =>
          rw [hl] at h
          cases h
        | ok t =>
          simp only [hl, bind, Except.bind] at h
          by_cases ha : s.shape.accepts t.text = true
          · rwa [if_pos ha] at h
          · rw [if_neg ha] at h
            cases h
      exact List.forall_mem_cons.2 ⟨hin, ih hrest⟩
    · rw [if_neg hin] at h
      cases h

/-- The tokens of a group are only bound if it is present. -/
theorem bindGroupBy_congr (hlook : ∀ i : Nat, i < n → look i = look' i) {g : List Slot}
    (hpos : ∀ s ∈ g, p.skipped ≤ s.position) {present : Bool}
    (hin : present = true → ∀ s ∈ g, p.place s < n) (bs : Bindings) :
    bindGroupBy look p present g bs = bindGroupBy look' p present g bs := by
  induction g generalizing bs with
  | nil => rfl
  | cons s g ih =>
    have hrest : ∀ bs, bindGroupBy look p present g bs = bindGroupBy look' p present g bs :=
      ih (fun s' hs' => hpos s' (List.mem_cons_of_mem _ hs'))
        (fun h s' hs' => hin h s' (List.mem_cons_of_mem _ hs'))
    unfold bindGroupBy
    cases s.parameter? with
    | none => exact hrest bs
    | some name =>
      cases present with
      | false => exact hrest _
      | true =>
        have hfirst := look_place hlook (hpos s List.mem_cons_self) (hin rfl s List.mem_cons_self)
        exact bind_congr_ok hfirst fun _ _ => hrest _

/-- Slots in a row have no position before the first. -/
theorem Consecutive.le_position {m : Nat} {slots : List Slot} (h : Consecutive m slots) :
    ∀ s ∈ slots, m ≤ s.position := by
  intro s hs
  have hmem : s.position ∈ slots.map Slot.position := List.mem_map_of_mem hs
  rw [show slots.map Slot.position = _ from h, List.mem_range'_1] at hmem
  exact hmem.1

theorem Consecutive.drop {m : Nat} {slots : List Slot} (h : Consecutive m slots) {k : Nat}
    (hk : k ≤ slots.length) : Consecutive (m + k) (slots.drop k) := by
  rw [← List.take_append_drop k slots, consecutive_append, List.length_take,
    Nat.min_eq_left hk] at h
  exact h.2

/-- A group has its slots among those that are left. -/
theorem groupOf_sublist (s : Slot) (ss : List Slot) : (groupOf s ss).Sublist (s :: ss) := by
  unfold groupOf
  split
  · exact (List.nil_sublist ss).cons_cons s
  · split
    · exact (List.nil_sublist ss).cons_cons s
    · exact List.filter_sublist.cons_cons s

/-- **Lookups that agree within the window** come to the same. The induction is on the number of
slots that are left. The invariant is that their positions follow each other, from one on that is
not below the number of slots passed over. -/
theorem bindSlotsBy_congr (hlook : ∀ i : Nat, i < n → look i = look' i) (slots : List Slot)
    {m : Nat} (hpos : Consecutive m slots) (hskipped : p.skipped ≤ m)
    (hrequired : ∀ s ∈ slots, s.optional = false → s.position < n) :
    bindSlotsBy look n slots p = bindSlotsBy look' n slots p := by
  induction hlen : slots.length using Nat.strongRecOn generalizing slots p m with
  | ind length ih =>
    subst hlen
    cases slots with
    | nil => rw [bindSlotsBy, bindSlotsBy]
    | cons s ss =>
      have hnext : ∀ k p', k ≤ ss.length → p'.skipped ≤ m + (k + 1) →
          bindSlotsBy look n (ss.drop k) p' = bindSlotsBy look' n (ss.drop k) p' := by
        intro k p' hk hskipped'
        have hdrop := hpos.drop (show k + 1 ≤ (s :: ss).length from Nat.succ_le_succ hk)
        rw [List.drop_succ_cons] at hdrop
        apply ih _ _ (ss.drop k) hdrop hskipped' _ rfl
        · rw [List.length_drop, List.length_cons]
          omega
        · exact fun s' hs' => hrequired s' (List.mem_cons_of_mem _ (List.mem_of_mem_drop hs'))
      rw [bindSlotsBy, bindSlotsBy]
      by_cases hopt : s.optional = true
      · have hgroup : ∀ s' ∈ groupOf s ss, p.skipped ≤ s'.position := fun s' hs' =>
          Nat.le_trans hskipped (hpos.le_position s' ((groupOf_sublist s ss).subset hs'))
        have hlength := (groupOf_sublist s ss).length_le
        have hpositive := groupOf_length_pos s ss
        rw [List.length_cons] at hlength
        rw [if_pos hopt, if_pos hopt]
        refine bind_congr_ok (groupPresentBy_congr hlook hgroup) ?_
        intro present hpresent
        have hin : present = true → ∀ s' ∈ groupOf s ss, p.place s' < n := by
          intro h
          rw [h] at hpresent
          exact place_of_groupPresentBy hpresent
        refine bind_congr_ok (bindGroupBy_congr hlook hgroup hin _) ?_
        intro bindings _
        -- a group that is absent adds its slots to those passed over, and they are passed as well
        apply hnext _ _ (by omega)
        by_cases h : present = true
        · rw [if_pos h]
          exact Nat.le_trans hskipped (Nat.le_add_right _ _)
        · rw [if_neg h]
          show p.skipped + (groupOf s ss).length ≤ _
          omega
      · have hin : p.place s < n := by
          have hlt := hrequired s List.mem_cons_self (by simpa using hopt)
          rw [Progress.place]
          omega
        have hfirst := Nat.le_trans hskipped (hpos.le_position s List.mem_cons_self)
        rw [if_neg hopt, if_neg hopt]
        refine bind_congr_ok (look_place hlook hfirst hin) ?_
        intro t _
        by_cases ha : s.shape.accepts t.text = true
        · rw [if_pos ha, if_pos ha]
          exact hnext 0 _ (Nat.zero_le _) (Nat.le_trans hskipped (Nat.le_add_right _ _))
        · rw [if_neg ha, if_neg ha]

/-! ## The window of a pattern -/

/-- **A lookup that is right in the window,** and answers as it likes elsewhere, or fails. -/
def RightIn (window : List Token) (look : Int → Except Fault Token) : Prop :=
  ∀ (i : Nat) (t : Token), window[i]? = some t → look i = .ok t

theorem rightIn_tokenAt (window : List Token) : RightIn window (tokenAt window) := by
  intro i t ht
  have hneg : ¬ (i : Int) < 0 := by omega
  simp only [tokenAt, if_neg hneg, ht]

/-- The lookup that fails outside the window, at negative places too. -/
def tokenWithin (window : List Token) (place : Int) : Except Fault Token :=
  if place < 0 then .error .noToken else tokenAt window place

theorem rightIn_tokenWithin (window : List Token) : RightIn window (tokenWithin window) := by
  intro i t ht
  have hneg : ¬ (i : Int) < 0 := by omega
  rw [tokenWithin, if_neg hneg]
  exact rightIn_tokenAt window i t ht

/-- **Matching looks in the window only,** if it has the tokens that a directive must have: any
lookup that is right there comes to the same. -/
theorem Pattern.bindSlotsBy_eq {α : Type} {p : Pattern α} (hp : p.WellPlaced)
    (hcomplete : p.required < window.length) (hlook : RightIn window look) :
    bindSlotsBy look window.length p.ordered {} = bindSlots window p.ordered {} := by
  have hsame : ∀ i : Nat, i < window.length → look i = tokenAt window i := by
    intro i hi
    have hget : window[i]? = some window[i] := List.getElem?_eq_getElem hi
    rw [hlook i _ hget, rightIn_tokenAt window i _ hget]
  rw [← bindSlotsBy_tokenAt]
  apply bindSlotsBy_congr hsame _ hp.consecutive (Nat.zero_le _)
  intro s hs hopt
  exact Nat.lt_of_le_of_lt (Pattern.position_le_required hs hopt) hcomplete

end ClipScript
