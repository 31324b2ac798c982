/-
# The outcome of a directive

`Registry.match` looks up the pattern, checks that there are enough tokens, matches
the slots, and then asks the pattern about the parameters. Here this is put on top
of the walk, for patterns whose slots are well placed:

* a directive with enough tokens never reads past them (`walk_stuck_le`), so what is
  left to go wrong is in the conditions and the constructor of the pattern;
* the number of tokens used lies between one and all of them (`walk_stop`);
* the outcome stays the same when other tokens follow, as long as no group that
  stayed behind could take one of them (`walk_congr`);
* every text that was passed fits a slot (`walk_passed`), and where all slots are
  required the texts fit them one by one (`Pattern.walkFrom_required`).
-/
import ClipScript.Proofs.Matching.Walk

set_option autoImplicit false

namespace ClipScript

/-! ## Well-placed patterns -/

/-- The last position is at least that of every slot. -/
theorem position_le_lastPosition {s : Slot} {slots : List Slot} (h : s ∈ slots) :
    s.position ≤ Pattern.lastPosition slots := by
  -- the maximum so far never gets smaller
  have hmono : ∀ (l : List Slot) (n : Nat), n ≤ l.foldl (fun n s => max n s.position) n := by
    intro l
    induction l with
    | nil => intro n; exact Nat.le_refl n
    | cons t l ih => intro n; exact Nat.le_trans (Nat.le_max_left ..) (ih _)
  unfold Pattern.lastPosition
  -- the maximum may start from anything, or the induction does not go through
  generalize 0 = n
  induction slots generalizing n with
  | nil => cases h
  | cons t l ih =>
    rcases List.mem_cons.1 h with rfl | h
    · exact Nat.le_trans (Nat.le_max_right ..) (hmono l _)
    · exact ih h _

variable {α : Type}

/-- **Well placed:** the positions are 1, 2, …, and every group is in one piece. -/
structure Pattern.WellPlaced (p : Pattern α) : Prop where
  consecutive : Consecutive 1 p.ordered
  together : inOnePiece p.ordered = true

namespace Pattern

variable {p : Pattern α}

theorem mem_ordered {s : Slot} : s ∈ p.ordered ↔ s ∈ p.slots :=
  (sortByKey_perm _ p.slots).mem_iff

/-- Slots that are listed by position are in order. -/
theorem ordered_eq (h : p.slots.Pairwise fun s t => s.position ≤ t.position) :
    p.ordered = p.slots :=
  sortByKey_of_pairwise _ (h.imp Int.ofNat_le.2)

/-- A slot that must be there is not behind the last position that a directive must have. -/
theorem position_le_required {s : Slot} (h : s ∈ p.ordered) (hrequired : s.optional = false) :
    s.position ≤ p.required :=
  position_le_lastPosition (List.mem_filter.2 ⟨mem_ordered.1 h, by simp [hrequired]⟩)

/-- A directive that is complete is not longer than the longest one. -/
theorem required_le_reach : p.required ≤ p.reach := by
  -- leaving slots out does not make the maximum larger, whatever both start from
  have hle : ∀ (l : List Slot) (m n : Nat), m ≤ n →
      (l.filter fun s => !s.optional).foldl (fun n s => max n s.position) m ≤
        l.foldl (fun n s => max n s.position) n := by
    intro l
    induction l with
    | nil => intro m n h; exact h
    | cons s l ih =>
      intro m n h
      cases ho : s.optional with
      | true => simpa [ho] using ih m _ (by omega)
      | false => simpa [ho] using ih _ _ (by omega)
  exact hle p.slots 0 0 (Nat.le_refl 0)

/-- All positions of a well-placed pattern are within its reach. -/
theorem WellPlaced.length_le_reach (h : p.WellPlaced) : p.ordered.length ≤ p.reach := by
  -- the last slot in order stands at the number of slots
  rcases List.eq_nil_or_concat p.ordered with hnil | ⟨ss, s, hs⟩
  · simp [hnil]
  · have hcons := h.consecutive
    rw [hs, List.concat_eq_append, consecutive_append, consecutive_cons] at hcons
    have hmem : s ∈ p.slots := mem_ordered.1 (by simp [hs])
    have hle : s.position ≤ p.reach := position_le_lastPosition hmem
    rw [hs, List.length_concat]
    omega

/-- The walk along a pattern over the texts after the keyword. -/
def walkFrom (p : Pattern α) (texts : List String) : Walk := walk (parts p.ordered) texts [] 1

/-- What is concluded from the end of a walk over the tokens of a directive. -/
def conclude (p : Pattern α) (keyword : Token) (tokens : List Token) :
    Walk → Except Fault (Outcome α)
  | .stuck place =>
    match tokens[place]? with
    | some t => .ok (.failed (.about t p.name
        (p.name ++ ": Invalid command arguments \x7b" ++ t.text ++ "\x7d")) place)
    | none => .error .noToken
  | .done bindings used => do
    let source := spaced (tokens.take used)
    match ← p.validate bindings with
    | .refused detail => .ok (.failed (.about keyword p.name
        ("Params didn't validate: \x7b" ++ source ++ "\x7d") detail) (used - 1))
    | .accepted => .ok (.made (← p.create bindings) source used)

end Pattern

/-! ## How far a walk goes -/

/-- The place where a walk stops: behind the last text it used, or before the one at fault. -/
def Walk.stop : Walk → Nat
  | .done _ used => used
  | .stuck place => place

theorem length_le_of_fits {g : List Slot} {ts : List String} (h : fits g ts = true) :
    g.length ≤ ts.length := by
  induction g generalizing ts with
  | nil => exact Nat.zero_le _
  | cons s g ih =>
    cases ts with
    | nil => cases h
    | cons t ts =>
      have := ih (Bool.and_eq_true_iff.1 h).2
      simp only [List.length_cons]
      omega

def Part.slots : Part → List Slot
  | .required s => [s]
  | .optional s ss => s :: ss

theorem flatMap_slots_parts (slots : List Slot) : (parts slots).flatMap Part.slots = slots := by
  induction slots using parts.induct with
  | case1 => simp [parts]
  | case2 s ss hopt ih =>
    rw [parts, if_pos hopt, List.flatMap_cons, ih, Part.slots, List.cons_append,
      List.takeWhile_append_dropWhile]
  | case3 s ss hopt ih =>
    rw [parts, if_neg hopt, List.flatMap_cons, ih]
    rfl

/-- The cursor never goes back, nor past the texts, nor further than there are slots. -/
theorem walk_stop (ps : List Part) (ts : List String) (bs : Bindings) (c : Nat) :
    c ≤ (walk ps ts bs c).stop ∧ (walk ps ts bs c).stop ≤ c + ts.length ∧
      (walk ps ts bs c).stop ≤ c + (ps.flatMap Part.slots).length := by
  induction ps, ts, bs, c using walk.induct with
  | case1 ts bs c => simp [walk, Walk.stop]
  | case2 s ps bs c => simp [walk, Walk.stop]
  | case3 s ps t ts bs c ha ih =>
    rw [walk, if_pos ha, List.flatMap_cons, List.length_append, List.length_cons]
    simp only [Part.slots, List.length_singleton]
    omega
  | case4 s ps t ts bs c ha => simp [walk, ha, Walk.stop]
  | case5 s ss ps ts bs c hfit ih =>
    -- a group that fits has a text for each of its slots, so the cursor stays within both
    have hlen := length_le_of_fits hfit
    rw [List.length_cons] at hlen
    rw [List.length_drop] at ih
    rw [walk, if_pos hfit, List.flatMap_cons, List.length_append]
    simp only [Part.slots, List.length_cons]
    omega
  | case6 s ss ps ts bs c hfit ih =>
    -- a group that stays behind leaves the cursor where it is
    rw [walk, if_neg hfit, List.flatMap_cons, List.length_append]
    omega

def Part.isRequired : Part → Bool
  | .required _ => true
  | .optional .. => false

/-- A walk that is done has used a text for every required slot. -/
theorem walk_required {ps : List Part} {ts : List String} {bs bs' : Bindings} {c u : Nat}
    (h : walk ps ts bs c = .done bs' u) : c + ps.countP Part.isRequired ≤ u := by
  induction ps, ts, bs, c using walk.induct with
  | case1 ts bs c =>
    simp only [walk, Walk.done.injEq] at h
    simp [h.2]
  | case2 s ps bs c => cases h
  | case3 s ps t ts bs c ha ih =>
    rw [walk, if_pos ha] at h
    have hused := ih h
    rw [List.countP_cons_of_pos rfl]
    omega
  | case4 s ps t ts bs c ha => simp [walk, ha] at h
  | case5 s ss ps ts bs c hfit ih =>
    rw [walk, if_pos hfit] at h
    have hused := ih h
    rw [List.countP_cons_of_neg (by simp [Part.isRequired])]
    omega
  | case6 s ss ps ts bs c hfit ih =>
    rw [walk, if_neg hfit] at h
    rw [List.countP_cons_of_neg (by simp [Part.isRequired])]
    exact ih h

/-- Texts that fit a group have the shape of one of its slots each. -/
theorem accepts_of_fits {g : List Slot} {ts : List String} (h : fits g ts = true) :
    ∀ t ∈ ts.take g.length, ∃ s ∈ g, s.shape.accepts t = true := by
  induction g generalizing ts with
  | nil => simp
  | cons s g ih =>
    cases ts with
    | nil => simp
    | cons t ts =>
      obtain ⟨ht, hts⟩ := Bool.and_eq_true_iff.1 h
      intro x hx
      rw [List.length_cons, List.take_succ_cons, List.mem_cons] at hx
      rcases hx with rfl | hx
      · exact ⟨s, List.mem_cons_self, ht⟩
      · obtain ⟨s', hs', hx'⟩ := ih hts x hx
        exact ⟨s', List.mem_cons_of_mem _ hs', hx'⟩

/-- **Every text that was passed fits a slot.** -/
theorem walk_passed (ps : List Part) (ts : List String) (bs : Bindings) (c : Nat) :
    ∀ t ∈ ts.take ((walk ps ts bs c).stop - c), ∃ s ∈ ps.flatMap Part.slots,
      s.shape.accepts t = true := by
  induction ps, ts, bs, c using walk.induct with
  | case1 ts bs c => simp [walk, Walk.stop]
  | case2 s ps bs c => simp [walk, Walk.stop]
  | case3 s ps t ts bs c ha ih =>
    have hstop := walk_stop ps ts (bs.bind? s.parameter? (some t)) (c + 1)
    rw [walk, if_pos ha]
    -- the text under the cursor is passed first, and then those of the walk from the next one
    generalize walk ps ts (bs.bind? s.parameter? (some t)) (c + 1) = w at *
    intro x hx
    rw [show w.stop - c = w.stop - (c + 1) + 1 by omega, List.take_succ_cons, List.mem_cons] at hx
    rcases hx with rfl | hx
    · exact ⟨s, by simp [Part.slots], ha⟩
    · obtain ⟨s', hs', hx'⟩ := ih x hx
      exact ⟨s', List.mem_append_right _ hs', hx'⟩
  | case4 s ps t ts bs c ha => simp [walk, ha, Walk.stop]
  | case5 s ss ps ts bs c hfit ih =>
    have hstop := walk_stop ps (ts.drop (ss.length + 1)) (bindTexts (s :: ss) ts bs)
      (c + (ss.length + 1))
    rw [walk, if_pos hfit]
    generalize walk ps (ts.drop (ss.length + 1)) (bindTexts (s :: ss) ts bs)
      (c + (ss.length + 1)) = w at *
    intro x hx
    -- the texts of the group are passed first, and then those behind it
    rw [show w.stop - c = ss.length + 1 + (w.stop - (c + (ss.length + 1))) by omega,
      List.take_add, List.mem_append] at hx
    rcases hx with hx | hx
    · obtain ⟨s', hs', hx'⟩ := accepts_of_fits hfit x hx
      exact ⟨s', List.mem_append_left _ hs', hx'⟩
    · obtain ⟨s', hs', hx'⟩ := ih x hx
      exact ⟨s', List.mem_append_right _ hs', hx'⟩
  | case6 s ss ps ts bs c hfit ih =>
    rw [walk, if_neg hfit]
    intro x hx
    obtain ⟨s', hs', hx'⟩ := ih x hx
    exact ⟨s', List.mem_append_right _ hs', hx'⟩

/-- A walk is stuck at a place that some required slot can have. -/
theorem walk_stuck_le (slots : List Slot) (ts : List String) (bs : Bindings) (c k : Nat)
    (hpos : Consecutive (c + k) slots) {place : Nat}
    (h : walk (parts slots) ts bs c = .stuck place) :
    ∃ s ∈ slots, s.optional = false ∧ place ≤ s.position := by
  induction slots using parts.induct generalizing ts bs c k with
  | case1 => simp [parts, walk] at h
  | case2 s ss hopt ih =>
    have hsplit := List.takeWhile_append_dropWhile (p := s.joins) (l := ss)
    rw [parts, if_pos hopt, walk] at h
    generalize ss.takeWhile s.joins = g at *
    generalize ss.dropWhile s.joins = later at *
    subst hsplit
    rw [← List.cons_append, consecutive_append, List.length_cons] at hpos
    obtain ⟨-, hpos⟩ := hpos
    -- whether or not the group fits, the walk gets stuck behind it
    have hlater : ∃ s ∈ later, s.optional = false ∧ place ≤ s.position := by
      split at h
      · rw [Nat.add_right_comm] at hpos
        exact ih _ _ _ _ hpos h
      · rw [Nat.add_assoc] at hpos
        exact ih _ _ _ _ hpos h
    obtain ⟨s', hs', hreq⟩ := hlater
    exact ⟨s', by simp [hs'], hreq⟩
  | case3 s ss hopt ih =>
    rw [Bool.not_eq_true] at hopt
    obtain ⟨hs, hss⟩ := consecutive_cons.1 hpos
    rw [parts, if_neg (by simp [hopt])] at h
    -- unless the walk goes on, this is the slot it is stuck at
    have hhere : place = c → ∃ s' ∈ s :: ss, s'.optional = false ∧ place ≤ s'.position :=
      fun hc => ⟨s, by simp, hopt, by omega⟩
    cases ts with
    | nil =>
      simp only [walk, Walk.stuck.injEq] at h
      exact hhere h.symm
    | cons t ts =>
      rw [walk] at h
      split at h
      · rw [Nat.add_right_comm] at hss
        obtain ⟨s', hs', hreq⟩ := ih _ _ _ _ hss h
        exact ⟨s', by simp [hs'], hreq⟩
      · exact hhere (Walk.stuck.inj h).symm

/-! ## Required slots -/

theorem fits_cons {s : Slot} {ss : List Slot} {ts : List String} :
    fits (s :: ss) ts = true ↔
      ∃ t ts', ts = t :: ts' ∧ s.shape.accepts t = true ∧ fits ss ts' = true := by
  cases ts with
  | nil => simp [fits]
  | cons t ts =>
    rw [fits, Bool.and_eq_true]
    constructor
    · intro h
      exact ⟨t, ts, rfl, h⟩
    · rintro ⟨_, _, ⟨⟩, h⟩
      exact h

/-- **A walk along required slots** that they fit goes on behind them. -/
theorem walk_map_required (slots : List Slot) {ts : List String} (h : fits slots ts = true)
    (ps : List Part) (bs : Bindings) (c : Nat) :
    walk (slots.map .required ++ ps) ts bs c =
      walk ps (ts.drop slots.length) (bindTexts slots ts bs) (c + slots.length) := by
  induction slots generalizing ts bs c with
  | nil => cases ts <;> rfl
  | cons s slots ih =>
    obtain ⟨t, ts, rfl, ha, hfit⟩ := fits_cons.1 h
    rw [List.map_cons, List.cons_append, walk, if_pos ha, ih hfit, List.length_cons,
      List.drop_succ_cons, bindTexts, Nat.add_assoc c 1, Nat.add_comm 1]

/-- Required slots that a walk goes past fit the texts. -/
theorem fits_of_walk {slots : List Slot} {ps : List Part} {ts : List String} {bs bs' : Bindings}
    {c u : Nat} (h : walk (slots.map .required ++ ps) ts bs c = .done bs' u) :
    fits slots ts = true := by
  induction slots generalizing ts bs c with
  | nil => rfl
  | cons s slots ih =>
    cases ts with
    | nil => cases h
    | cons t ts =>
      rw [List.map_cons, List.cons_append, walk] at h
      split at h
      · next ha => exact fits_cons.2 ⟨t, ts, rfl, ha, ih h⟩
      · cases h

/-- Required slots are a part each. -/
theorem parts_append_of_required {slots : List Slot} (h : ∀ s ∈ slots, s.optional = false)
    (later : List Slot) : parts (slots ++ later) = slots.map .required ++ parts later := by
  induction slots with
  | nil => rfl
  | cons s slots ih =>
    obtain ⟨hs, hslots⟩ := List.forall_mem_cons.1 h
    rw [List.cons_append, parts, if_neg (by simp [hs]), ih hslots]
    rfl

/-- The parts of a pattern whose slots are all required and listed by position. -/
theorem Pattern.parts_of_required {p : Pattern α}
    (hsorted : p.slots.Pairwise fun s t => s.position ≤ t.position)
    (hrequired : ∀ s ∈ p.slots, s.optional = false) :
    parts p.ordered = p.slots.map .required := by
  have hparts := parts_append_of_required hrequired []
  rw [List.append_nil, parts, List.append_nil] at hparts
  rw [Pattern.ordered_eq hsorted, hparts]

/-- **Matching a pattern whose slots are all required:** the texts have their shapes. -/
theorem Pattern.walkFrom_required {p : Pattern α} {slots : List Slot}
    (hparts : parts p.ordered = slots.map .required) {ts : List String} {bs : Bindings} {u : Nat} :
    p.walkFrom ts = .done bs u ↔
      fits slots ts = true ∧ bs = bindTexts slots ts [] ∧ u = 1 + slots.length := by
  rw [Pattern.walkFrom, hparts, ← List.append_nil (slots.map _)]
  constructor
  · intro h
    have hfit := fits_of_walk h
    rw [walk_map_required slots hfit, walk, Walk.done.injEq] at h
    exact ⟨hfit, h.1.symm, h.2.symm⟩
  · rintro ⟨hfit, rfl, rfl⟩
    rw [walk_map_required slots hfit, walk]

/-! ## What follows a directive

A walk that is done has looked past the texts it used only where a group stayed behind. If
no slot of a group takes the next text, the group stays behind whatever follows. -/

/-- The slots of a pattern that need not be there. -/
def optionalSlots (ps : List Part) : List Slot :=
  ps.flatMap fun
    | .required _ => []
    | .optional s ss => s :: ss

theorem mem_of_mem_optionalSlots {slots : List Slot} {s : Slot}
    (h : s ∈ optionalSlots (parts slots)) : s ∈ slots := by
  obtain ⟨part, hpart, hs⟩ := List.mem_flatMap.1 h
  rw [← flatMap_slots_parts slots, List.mem_flatMap]
  refine ⟨part, hpart, ?_⟩
  cases part with
  | required slot => cases hs
  | optional first others => exact hs

/-- Whether a group fits does not depend on more texts than it has slots. -/
theorem fits_append (g : List Slot) (ts after after' : List String) (h : g.length ≤ ts.length) :
    fits g (ts ++ after) = fits g (ts ++ after') := by
  induction g generalizing ts with
  | nil => rfl
  | cons s g ih =>
    cases ts with
    | nil => simp at h
    | cons t ts =>
      simp only [List.length_cons, Nat.add_le_add_iff_right] at h
      simp only [List.cons_append, fits, ih ts h]

/-- A group that did not fit still does not, when none of its slots takes the next text. -/
theorem not_fits_append {g : List Slot} {ts after after' : List String}
    (h : fits g (ts ++ after) = false)
    (hnext : ∀ t ∈ after'.head?, ∀ s ∈ g, s.shape.accepts t = false) :
    fits g (ts ++ after') = false := by
  induction g generalizing ts with
  | nil => cases h
  | cons s g ih =>
    cases ts with
    | nil =>
      -- the texts ended before the group did, so the next one is for this slot
      cases after' with
      | nil => rfl
      | cons t after' =>
        have hs := hnext t (by simp) s (by simp)
        simp [fits, hs]
    | cons t ts =>
      rw [List.cons_append, fits, Bool.and_eq_false_iff] at h ⊢
      exact h.imp_right fun h => ih h fun t ht s hs => hnext t ht s (by simp [hs])

/-- What a group binds is in the first texts. -/
theorem bindTexts_append (g : List Slot) (ts after : List String) (bs : Bindings)
    (h : g.length ≤ ts.length) : bindTexts g (ts ++ after) bs = bindTexts g ts bs := by
  induction g generalizing ts bs with
  | nil => cases ts <;> cases after <;> rfl
  | cons s g ih =>
    cases ts with
    | nil => simp at h
    | cons t ts =>
      simp only [List.length_cons, Nat.add_le_add_iff_right] at h
      simp only [List.cons_append, bindTexts, ih ts _ h]

/-- **Other texts may follow:** a walk that used the texts `ts` ends in the same way over `ts`
and other texts, if no optional slot takes the first of these. -/
theorem walk_congr {ps : List Part} {ts after after' : List String} {bs bs' : Bindings} {c : Nat}
    (h : walk ps (ts ++ after) bs c = .done bs' (c + ts.length))
    (hnext : ∀ t ∈ after'.head?, ∀ s ∈ optionalSlots ps, s.shape.accepts t = false) :
    walk ps (ts ++ after') bs c = .done bs' (c + ts.length) := by
  induction ps generalizing ts bs c with
  | nil => simpa [walk] using h
  | cons p ps ih =>
    have hnext' : ∀ t ∈ after'.head?, ∀ s ∈ optionalSlots ps, s.shape.accepts t = false :=
      fun t ht s hs => hnext t ht s (List.mem_append_right _ hs)
    cases p with
    | required s =>
      cases ts with
      | nil =>
        -- the walk would have used the text that follows
        cases after with
        | nil => cases h
        | cons t after =>
          rw [List.nil_append, walk] at h
          split at h
          · have hstop := (walk_stop ps after (bs.bind? s.parameter? (some t)) (c + 1)).1
            rw [h] at hstop
            simp only [Walk.stop, List.length_nil] at hstop
            omega
          · cases h
      | cons t ts =>
        rw [List.cons_append, walk] at h ⊢
        split at h
        · next ha =>
          rw [if_pos ha]
          rw [List.length_cons, show c + (ts.length + 1) = c + 1 + ts.length by omega] at h ⊢
          exact ih h hnext'
        · cases h
    | optional s ss =>
      rw [walk] at h ⊢
      split at h
      · next hfit =>
        -- the cursor does not go back, so the texts of the group are among `ts`
        have hstop := (walk_stop ps ((ts ++ after).drop (ss.length + 1))
          (bindTexts (s :: ss) (ts ++ after) bs) (c + (ss.length + 1))).1
        rw [h] at hstop
        simp only [Walk.stop] at hstop
        have hlen : (s :: ss).length ≤ ts.length := by
          rw [List.length_cons]
          omega
        rw [List.length_cons] at hlen
        rw [fits_append (s :: ss) ts after after' hlen] at hfit
        rw [if_pos hfit, bindTexts_append (s :: ss) ts after' bs hlen,
          List.drop_append_of_le_length hlen]
        rw [bindTexts_append (s :: ss) ts after bs hlen, List.drop_append_of_le_length hlen] at h
        rw [show c + ts.length = c + (ss.length + 1) + (ts.drop (ss.length + 1)).length by
          rw [List.length_drop]; omega] at h ⊢
        exact ih h hnext'
      · next hfit =>
        -- the group stays behind: after other texts, only the next one could make it fit
        rw [Bool.not_eq_true] at hfit
        have hfit' := not_fits_append hfit fun t ht s' hs' =>
          hnext t ht s' (List.mem_append_left _ hs')
        rw [if_neg (by simp [hfit'])]
        exact ih h hnext'

/-- A walk goes past the keyword, and not past the last text. -/
theorem walkFrom_stop (p : Pattern α) (texts : List String) :
    1 ≤ (p.walkFrom texts).stop ∧ (p.walkFrom texts).stop ≤ texts.length + 1 := by
  have hstop := walk_stop (parts p.ordered) texts [] 1
  rw [Pattern.walkFrom]
  omega

/-- A walk that is done would be so without the texts it did not use. -/
theorem walkFrom_take {p : Pattern α} {texts : List String} {bs : Bindings} {used : Nat}
    (h : p.walkFrom texts = .done bs used) :
    p.walkFrom (texts.take (used - 1)) = .done bs used := by
  have hstop := walkFrom_stop p texts
  rw [h, Walk.stop] at hstop
  -- the texts that are not used follow those that are, and none of them is missed
  have hused : used = 1 + (texts.take (used - 1)).length := by
    rw [List.length_take]
    omega
  have hcongr := @walk_congr (parts p.ordered) (texts.take (used - 1)) (texts.drop (used - 1)) []
    [] bs 1 (by rw [List.take_append_drop, ← hused]; exact h) (by simp)
  rwa [List.append_nil, ← hused] at hcongr

/-- A walk is stuck where a slot that must be there could be. -/
theorem walkFrom_stuck_le {p : Pattern α} (hp : p.WellPlaced) {texts : List String} {place : Nat}
    (h : p.walkFrom texts = .stuck place) : place ≤ p.required := by
  obtain ⟨s, hs, hrequired, hle⟩ := walk_stuck_le p.ordered _ [] 1 0 hp.consecutive h
  exact Nat.le_trans hle (Pattern.position_le_required hs hrequired)

/-- The token where a walk over enough texts is stuck. -/
theorem getElem?_of_walkFrom_stuck {p : Pattern α} (hp : p.WellPlaced) {keyword : Token}
    {rest : List Token} (hlen : p.required ≤ rest.length) {place : Nat}
    (h : p.walkFrom (rest.map Token.text) = .stuck place) :
    ∃ t, (keyword :: rest)[place]? = some t := by
  have hle := walkFrom_stuck_le hp h
  have hlt : place < (keyword :: rest).length := by
    rw [List.length_cons]
    omega
  exact ⟨_, List.getElem?_eq_getElem hlt⟩

/-! ## Matching a directive -/

/-- **Matching with a well-placed pattern:** enough tokens, then the walk, then what the pattern
makes of it. -/
theorem match_eq_walk {r : Registry α} {p : Pattern α} {keyword : Token} (rest : List Token)
    (hfind : r.find? keyword.text = some p) (hp : p.WellPlaced) :
    r.match keyword rest =
      if rest.length < p.required then
        .ok (.failed (.about keyword p.name ("Incomplete command: " ++ p.name)) 0)
      else p.conclude keyword (keyword :: rest) (p.walkFrom (rest.map Token.text)) := by
  have hreach := hp.length_le_reach
  have hrequired := p.required_le_reach
  -- the window is too short exactly if the directive is
  have hwindow : ((keyword :: rest).take (p.reach + 1)).length ≤ p.required ↔
      rest.length < p.required := by
    rw [List.length_take, List.length_cons]
    omega
  unfold Registry.match
  simp only [hfind, hwindow]
  split
  · rfl
  · have hwalk := @bindSlots_eq_walk (keyword :: rest) p.reach p.ordered 0 1 [] hp.consecutive
      hp.together (by omega)
    rw [List.drop_succ_cons, List.drop_zero] at hwalk
    have hstop := walk_stop (parts p.ordered) (rest.map Token.text) [] 1
    rw [show ({} : Progress) = ⟨[], 0, 1⟩ from rfl, hwalk, Pattern.walkFrom]
    cases hw : walk (parts p.ordered) (rest.map Token.text) [] 1 with
    | stuck place =>
      cases hget : (keyword :: rest)[place]? with
      | none => simp [Walk.binding, Pattern.conclude, hget, bind, Except.bind]
      | some t => simp [Walk.binding, Pattern.conclude, hget, bind, Except.bind]
    | done bs used =>
      rw [hw, flatMap_slots_parts] at hstop
      -- no more tokens are used than the window has
      have htake : ((keyword :: rest).take (p.reach + 1)).take used =
          (keyword :: rest).take used := by
        rw [List.take_take, Nat.min_eq_left (by simp only [Walk.stop] at hstop; omega)]
      rcases hv : p.validate bs with f | _ | detail
      all_goals simp only [Walk.binding, Pattern.conclude, bind, Except.bind, htake, hv]

/-- **A directive is made** exactly if it has enough tokens, the walk is done, and the pattern
accepts what it binds. -/
theorem match_made_iff {r : Registry α} {p : Pattern α} {keyword : Token} {rest : List Token}
    (hfind : r.find? keyword.text = some p) (hp : p.WellPlaced) {node : α} {source : String}
    {consumed : Nat} :
    r.match keyword rest = .ok (.made node source consumed) ↔
      p.required ≤ rest.length ∧ ∃ bs, p.walkFrom (rest.map Token.text) = .done bs consumed ∧
        p.validate bs = .ok .accepted ∧ p.create bs = .ok node ∧
        source = spaced ((keyword :: rest).take consumed) := by
  rw [match_eq_walk rest hfind hp]
  by_cases hlen : rest.length < p.required
  · rw [if_pos hlen]
    constructor
    · intro h
      cases h
    · intro h
      omega
  · rw [if_neg hlen]
    constructor
    · intro h
      refine ⟨by omega, ?_⟩
      -- a walk that is stuck, a condition that is not met and a fault make nothing
      cases hw : p.walkFrom (rest.map Token.text) with
      | stuck place =>
        rw [hw, Pattern.conclude] at h
        split at h
        · cases h
        · cases h
      | done bs used =>
        rw [hw, Pattern.conclude] at h
        rcases hv : p.validate bs with f | _ | detail
        · rw [hv] at h
          cases h
        · rcases hc : p.create bs with f | node'
          · simp [hv, hc, bind, Except.bind] at h
          · simp only [hv, hc, bind, Except.bind, Except.ok.injEq, Outcome.made.injEq] at h
            obtain ⟨rfl, rfl, rfl⟩ := h
            exact ⟨bs, rfl, hv, hc, rfl⟩
        · simp [hv, bind, Except.bind] at h
    · rintro ⟨-, bs, hw, hv, hc, rfl⟩
      rw [hw, Pattern.conclude, hv]
      simp only [bind, Except.bind, hc]

end ClipScript
