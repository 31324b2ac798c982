/-
# Reading a directive greedily

What matching amounts to, said without positions, windows or counts of what was passed
over. A cursor starts on the token after the keyword and goes along the parts of the
pattern:

* a required slot takes the token at the cursor, which moves on by one; a token that does
  not have its shape is a mismatch, and reading ends there;
* a group of optional slots takes as many tokens as it has slots, if they are all there
  and have the shapes of the slots one after another; otherwise it takes none, and
  every slot of it has its fallback.

`Reads` says this by one rule for each thing that can happen. It speaks of the tokens
themselves and not of the texts that are left, and it does not bind names anew, so it
shares nothing with matching but the slots. Matching in the window agrees with it for
every pattern that is *placed*: each of the positions 1, 2, … belongs to one slot, and
what stands between two slots of a group belongs to the group (`bindSlots_reads`).
-/
import ClipScript.Proofs.Matching.Parameters
import Mathlib.Data.List.TakeWhile

set_option autoImplicit false

namespace ClipScript

variable {α : Type}

/-! ## Placed patterns -/

/-- **Placed:** every position from 1 on belongs to one slot, and what stands between two optional
slots of a group belongs to it as well. The slots may be listed in any order. -/
structure Pattern.Placed (p : Pattern α) : Prop where
  positions : (p.slots.map Slot.position).Perm (List.range' 1 p.slots.length)
  groups : ∀ s ∈ p.slots, ∀ t ∈ p.slots, ∀ u ∈ p.slots, s.optional = true →
    s.position < t.position → t.position < u.position → s.joins u = true → s.joins t = true

/-- In order of position the slots of a placed pattern stand at 1, 2, …. -/
theorem Pattern.Placed.consecutive {p : Pattern α} (hp : p.Placed) : Consecutive 1 p.ordered := by
  have hperm : p.ordered.Perm p.slots := sortByKey_perm _ p.slots
  have hsorted : (p.ordered.map Slot.position).Pairwise (· ≤ ·) := by
    rw [List.pairwise_map]
    refine (pairwise_sortByKey (fun s : Slot => (s.position : Int)) p.slots).imp ?_
    intro s t hst
    exact Int.ofNat_le.1 hst
  have hrange : (List.range' 1 p.slots.length).Pairwise (· ≤ ·) :=
    (List.pairwise_lt_range' 1).imp Nat.le_of_lt
  -- two sorted lists with the same items are the same list
  unfold Consecutive
  rw [hperm.length_eq]
  exact ((hperm.map Slot.position).trans hp.positions).eq_of_pairwise
    (fun _ _ _ _ => Nat.le_antisymm) hsorted hrange

/-- Slots at increasing positions are in one piece, if no group goes on behind a slot that is not
of the group. -/
theorem inOnePiece_of_between {slots : List Slot}
    (hsorted : slots.Pairwise fun s t => s.position < t.position)
    (hbetween : ∀ s ∈ slots, ∀ t ∈ slots, ∀ u ∈ slots, s.optional = true →
      s.position < t.position → t.position < u.position → s.joins u = true → s.joins t = true) :
    inOnePiece slots = true := by
  induction slots with
  | nil => rfl
  | cons s slots ih =>
    obtain ⟨hs, hslots⟩ := List.pairwise_cons.1 hsorted
    have hrest : inOnePiece slots = true := by
      apply ih hslots
      intro t ht u hu v hv
      exact hbetween t (by simp [ht]) u (by simp [hu]) v (by simp [hv])
    unfold inOnePiece
    rw [hrest, Bool.and_true, Bool.or_eq_true, Bool.not_eq_true', List.all_eq_true]
    by_cases hopt : s.optional = true
    · right
      intro u hu
      rw [Bool.not_eq_true']
      -- the first slot that is not of the group is behind all that are
      cases hd : slots.dropWhile s.joins with
      | nil => simp [hd] at hu
      | cons t rest =>
        have ht : s.joins t = false := by
          have := List.head_dropWhile_not s.joins (l := slots) (by simp [hd])
          simpa [hd] using this
        have hsuffix : t :: rest <:+ slots := hd ▸ List.dropWhile_suffix _
        have htmem : t ∈ slots := hsuffix.subset List.mem_cons_self
        have hbehind := List.pairwise_cons.1 (hslots.sublist hsuffix.sublist)
        rw [hd] at hu
        rcases List.mem_cons.1 hu with rfl | hu
        · exact ht
        · by_contra hjoins
          rw [Bool.not_eq_false] at hjoins
          have hmem : u ∈ slots := hsuffix.subset (List.mem_cons_of_mem _ hu)
          have := hbetween s (by simp) t (by simp [htmem]) u (by simp [hmem]) hopt (hs t htmem)
            (hbehind.1 u hu) hjoins
          rw [ht] at this
          cases this
    · left
      simpa using hopt

/-- **A placed pattern is well placed** once its slots are in order. -/
theorem Pattern.Placed.wellPlaced {p : Pattern α} (hp : p.Placed) : p.WellPlaced := by
  have hcons := hp.consecutive
  refine ⟨hcons, inOnePiece_of_between ?_ ?_⟩
  · rw [← List.pairwise_map (f := Slot.position) (R := (· < ·)),
      show p.ordered.map Slot.position = _ from hcons]
    exact List.pairwise_lt_range' 1
  · intro s hs t ht u hu
    exact hp.groups s (Pattern.mem_ordered.1 hs) t (Pattern.mem_ordered.1 ht) u
      (Pattern.mem_ordered.1 hu)

/-! ## Reading -/

/-- **What a reading comes to:** a value for each slot, the groups that took their tokens, and the
place of the cursor at the end; or the token that a required slot did not take, with its place. -/
inductive Reading where
  | complete (values : List (Slot × Option String)) (groups : List (List Slot)) (cursor : Nat)
  | mismatch (token : Token) (cursor : Nat)

namespace Reading

/-- A reading with more slots and groups in front. -/
def after (values : List (Slot × Option String)) (groups : List (List Slot)) : Reading → Reading
  | complete vs gs cursor => complete (values ++ vs) (groups ++ gs) cursor
  | mismatch token cursor => mismatch token cursor

theorem after_eq_complete {r : Reading} {values vs : List (Slot × Option String)}
    {groups gs : List (List Slot)} {u : Nat} :
    r.after vs gs = .complete values groups u ↔
      ∃ values' groups', r = .complete values' groups' u ∧ values = vs ++ values' ∧
        groups = gs ++ groups' := by
  cases r with
  | mismatch => simp [after]
  | complete values' groups' cursor =>
    constructor
    · intro h
      obtain ⟨rfl, rfl, rfl⟩ := Reading.complete.inj h
      exact ⟨values', groups', rfl, rfl, rfl⟩
    · rintro ⟨_, _, ⟨⟩, rfl, rfl⟩
      rfl

/-- The parameters of some slots: the value of each that has a name, in order. -/
def params (values : List (Slot × Option String)) : Bindings :=
  values.filterMap fun x => x.1.parameter?.map (·, x.2)

/-- Where a walk over the texts ends that binds what is read. -/
def walk : Reading → Walk
  | complete values _ cursor => .done (params values) cursor
  | mismatch _ cursor => .stuck cursor

/-- What matching the slots makes of a reading. -/
def binding : Reading → Binding
  | complete values _ cursor => .bound (params values) cursor
  | mismatch token cursor => .mismatch token cursor

end Reading

/-- Whether the slots of a group have tokens of their shapes, one after another from the cursor. -/
def Stands (tokens : List Token) (cursor : Nat) (group : List Slot) : Prop :=
  ∀ k s, group[k]? = some s → ∃ t, tokens[cursor + k]? = some t ∧ s.shape.accepts t.text = true

/-- Slots with the texts of some tokens. -/
def taken (slots : List Slot) (tokens : List Token) : List (Slot × Option String) :=
  (slots.zip tokens).map fun x => (x.1, some x.2.text)

/-- Slots with their fallbacks. -/
def leftOut (slots : List Slot) : List (Slot × Option String) :=
  slots.map fun s => (s, s.fallback)

/-- **Reading the parts of a pattern** in order, with the cursor on one of the tokens. -/
inductive Reads (tokens : List Token) : Nat → List Part → Reading → Prop where
  /-- No part is left. -/
  | done {c : Nat} : Reads tokens c [] (.complete [] [] c)
  /-- A required slot does not take the token at the cursor. -/
  | mismatch {c : Nat} {s : Slot} {ps : List Part} {t : Token} (token : tokens[c]? = some t)
      (rejects : s.shape.accepts t.text = false) :
    Reads tokens c (.required s :: ps) (.mismatch t c)
  /-- A required slot takes the token at the cursor. -/
  | required {c : Nat} {s : Slot} {ps : List Part} {t : Token} {r : Reading}
      (token : tokens[c]? = some t) (accepts : s.shape.accepts t.text = true)
      (rest : Reads tokens (c + 1) ps r) :
    Reads tokens c (.required s :: ps) (r.after [(s, some t.text)] [])
  /-- A group is there. -/
  | present {c : Nat} {s : Slot} {ss : List Slot} {ps : List Part} {r : Reading}
      (stands : Stands tokens c (s :: ss)) (rest : Reads tokens (c + (s :: ss).length) ps r) :
    Reads tokens c (.optional s ss :: ps)
      (r.after (taken (s :: ss) (tokens.drop c)) [s :: ss])
  /-- A group is not there. -/
  | absent {c : Nat} {s : Slot} {ss : List Slot} {ps : List Part} {r : Reading}
      (stands : ¬ Stands tokens c (s :: ss)) (rest : Reads tokens c ps r) :
    Reads tokens c (.optional s ss :: ps) (r.after (leftOut (s :: ss)) [])

namespace Reads

variable {tokens : List Token} {c : Nat} {ps : List Part}

/-- **There is only one reading.** -/
theorem unique {r r' : Reading} (h : Reads tokens c ps r) (h' : Reads tokens c ps r') :
    r = r' := by
  induction h generalizing r' with
  | done =>
    cases h'
    rfl
  | mismatch token rejects =>
    cases h' with
    | mismatch token' _ =>
      rw [token, Option.some.injEq] at token'
      rw [token']
    | required token' accepts _ =>
      rw [token, Option.some.injEq] at token'
      rw [← token', rejects] at accepts
      cases accepts
  | required token accepts _ ih =>
    cases h' with
    | mismatch token' rejects =>
      rw [token, Option.some.injEq] at token'
      rw [← token', accepts] at rejects
      cases rejects
    | required token' _ rest' =>
      rw [token, Option.some.injEq] at token'
      rw [ih rest', token']
  | present stands _ ih =>
    cases h' with
    | present _ rest' => rw [ih rest']
    | absent stands' _ => exact absurd stands stands'
  | absent stands _ ih =>
    cases h' with
    | present stands' _ => exact absurd stands' stands
    | absent _ rest' => rw [ih rest']

/-- **The cursor moves** past one token for every required slot, and past as many as a group has
slots for every group that is there. -/
theorem cursor_eq {values : List (Slot × Option String)} {groups : List (List Slot)} {u : Nat}
    (h : Reads tokens c ps (.complete values groups u)) :
    u = c + ps.countP Part.isRequired + groups.flatten.length := by
  generalize hr : Reading.complete values groups u = r at h
  induction h generalizing values groups with
  | done =>
    cases hr
    rfl
  | mismatch => cases hr
  | required _ _ _ ih =>
    obtain ⟨vs, gs, hvs, -, rfl⟩ := Reading.after_eq_complete.1 hr.symm
    have hu := ih hvs.symm
    rw [List.countP_cons_of_pos rfl]
    omega
  | present _ _ ih =>
    obtain ⟨vs, gs, hvs, -, rfl⟩ := Reading.after_eq_complete.1 hr.symm
    have hu := ih hvs.symm
    rw [List.countP_cons_of_neg (by simp [Part.isRequired]), List.singleton_append,
      List.flatten_cons, List.length_append]
    omega
  | absent _ _ ih =>
    obtain ⟨vs, gs, hvs, -, rfl⟩ := Reading.after_eq_complete.1 hr.symm
    have hu := ih hvs.symm
    rw [List.countP_cons_of_neg (by simp [Part.isRequired])]
    exact hu

end Reads

/-! ## From the walk to the reading -/

section

variable {tokens : List Token}

theorem stands_nil (c : Nat) : Stands tokens c [] := by
  intro k s hs
  cases hs

theorem stands_cons {c : Nat} {s : Slot} {ss : List Slot} :
    Stands tokens c (s :: ss) ↔
      (∃ t, tokens[c]? = some t ∧ s.shape.accepts t.text = true) ∧ Stands tokens (c + 1) ss := by
  constructor
  · intro h
    refine ⟨h 0 s rfl, ?_⟩
    intro k s' hs'
    rw [Nat.add_assoc, Nat.add_comm 1]
    exact h (k + 1) s' hs'
  · rintro ⟨hfirst, hrest⟩ k s' hs'
    cases k with
    | zero =>
      rw [List.getElem?_cons_zero, Option.some.injEq] at hs'
      rw [← hs']
      exact hfirst
    | succ k =>
      rw [Nat.add_comm k, ← Nat.add_assoc]
      exact hrest k s' hs'

/-- **A group fits** the texts from the cursor on exactly if it stands there. -/
theorem fits_iff_stands {g : List Slot} {c : Nat} :
    fits g ((tokens.drop c).map Token.text) = true ↔ Stands tokens c g := by
  induction g generalizing c with
  | nil => exact ⟨fun _ => stands_nil c, fun _ => rfl⟩
  | cons s g ih =>
    rw [stands_cons]
    cases hget : tokens[c]? with
    | none =>
      rw [texts_of_getElem?_none hget]
      simp [fits]
    | some t =>
      rw [texts_of_getElem? hget, fits, Bool.and_eq_true, ih]
      simp

theorem bindTexts_map (g : List Slot) (ts : List Token) (bs : Bindings) :
    bindTexts g (ts.map Token.text) bs = bs.bindAll (taken g ts) := by
  induction g generalizing ts bs with
  | nil => cases ts <;> rfl
  | cons s g ih =>
    cases ts with
    | nil => rfl
    | cons t ts =>
      rw [List.map_cons, bindTexts, ih]
      rfl

theorem bindAll_append (xs ys : List (Slot × Option String)) (bs : Bindings) :
    bs.bindAll (xs ++ ys) = (bs.bindAll xs).bindAll ys := List.foldl_append

/-- **A walk that is done** has read all the parts, and bound the values that were read. -/
theorem reads_of_walk_done {ps : List Part} {c u : Nat} {bs bs' : Bindings}
    (h : walk ps ((tokens.drop c).map Token.text) bs c = .done bs' u) :
    ∃ values groups, Reads tokens c ps (.complete values groups u) ∧ bs' = bs.bindAll values := by
  induction ps generalizing c bs with
  | nil =>
    simp only [walk, Walk.done.injEq] at h
    obtain ⟨rfl, rfl⟩ := h
    exact ⟨[], [], .done, rfl⟩
  | cons p ps ih =>
    cases p with
    | required s =>
      cases hget : tokens[c]? with
      | none =>
        rw [texts_of_getElem?_none hget] at h
        cases h
      | some t =>
        rw [texts_of_getElem? hget, walk] at h
        by_cases ha : s.shape.accepts t.text = true
        · rw [if_pos ha] at h
          obtain ⟨values, groups, hreads, hbind⟩ := ih h
          exact ⟨_, _, .required hget ha hreads, hbind⟩
        · rw [if_neg ha] at h
          cases h
    | optional s ss =>
      rw [walk] at h
      by_cases hfit : fits (s :: ss) ((tokens.drop c).map Token.text) = true
      · rw [if_pos hfit, ← List.map_drop, List.drop_drop, bindTexts_map] at h
        obtain ⟨values, groups, hreads, hbind⟩ := ih h
        refine ⟨_, _, .present (fits_iff_stands.1 hfit) hreads, ?_⟩
        rw [bindAll_append]
        exact hbind
      · rw [if_neg hfit, bindFallbacks_eq] at h
        obtain ⟨values, groups, hreads, hbind⟩ := ih h
        refine ⟨_, _, .absent (fun hstands => hfit (fits_iff_stands.2 hstands)) hreads, ?_⟩
        rw [bindAll_append]
        exact hbind

/-- **A walk that is stuck** at a token has read the parts up to a mismatch there. -/
theorem reads_of_walk_stuck {ps : List Part} {c place : Nat} {bs : Bindings} {t : Token}
    (h : walk ps ((tokens.drop c).map Token.text) bs c = .stuck place)
    (ht : tokens[place]? = some t) : Reads tokens c ps (.mismatch t place) := by
  induction ps generalizing c bs with
  | nil => cases h
  | cons p ps ih =>
    cases p with
    | required s =>
      cases hget : tokens[c]? with
      | none =>
        -- past the last token there is none at fault
        rw [texts_of_getElem?_none hget] at h
        obtain rfl : c = place := Walk.stuck.inj h
        rw [hget] at ht
        cases ht
      | some t' =>
        rw [texts_of_getElem? hget, walk] at h
        by_cases ha : s.shape.accepts t'.text = true
        · rw [if_pos ha] at h
          exact .required hget ha (ih h)
        · rw [if_neg ha] at h
          obtain rfl : c = place := Walk.stuck.inj h
          rw [ht, Option.some.injEq] at hget
          rw [hget]
          exact .mismatch (hget ▸ ht) (by simpa using ha)
    | optional s ss =>
      rw [walk] at h
      by_cases hfit : fits (s :: ss) ((tokens.drop c).map Token.text) = true
      · rw [if_pos hfit, ← List.map_drop, List.drop_drop] at h
        exact .present (fits_iff_stands.1 hfit) (ih h)
      · rw [if_neg hfit] at h
        exact .absent (fun hstands => hfit (fits_iff_stands.2 hstands)) (ih h)

end

/-! ## Parameters with names of their own -/

/-- The slots that values were read for are those of the parts. -/
theorem Reads.slots_eq {tokens : List Token} {c u : Nat} {ps : List Part}
    {values : List (Slot × Option String)} {groups : List (List Slot)}
    (h : Reads tokens c ps (.complete values groups u)) :
    values.map Prod.fst = ps.flatMap Part.slots := by
  generalize hr : Reading.complete values groups u = r at h
  induction h generalizing values groups with
  | done =>
    cases hr
    rfl
  | mismatch => cases hr
  | required _ _ _ ih =>
    obtain ⟨vs, gs, hvs, rfl, -⟩ := Reading.after_eq_complete.1 hr.symm
    rw [List.map_append, ih hvs.symm]
    rfl
  | @present c s ss ps r stands _ ih =>
    obtain ⟨vs, gs, hvs, rfl, -⟩ := Reading.after_eq_complete.1 hr.symm
    -- the group stands there, so no slot of it is without a token
    have hlen := length_le_of_fits (fits_iff_stands.2 stands)
    rw [List.length_map] at hlen
    rw [List.map_append, ih hvs.symm, taken, List.map_map, List.flatMap_cons, Part.slots]
    congr 1
    exact List.map_fst_zip hlen
  | @absent c s ss ps r _ _ ih =>
    obtain ⟨vs, gs, hvs, rfl, -⟩ := Reading.after_eq_complete.1 hr.symm
    rw [List.map_append, ih hvs.symm, leftOut, List.map_map, List.flatMap_cons, Part.slots]
    congr 1
    exact List.map_id _

/-- Binding a name that is new puts it behind the others. -/
theorem Bindings.bind_of_fresh (bs : Bindings) {name : String} (value : Option String)
    (h : name ∉ bs.map Prod.fst) : bs.bind name value = bs ++ [(name, value)] := by
  induction bs with
  | nil => rfl
  | cons b bs ih =>
    rw [List.map_cons, List.mem_cons, not_or] at h
    rw [Bindings.bind, if_neg (Ne.symm h.1), ih h.2]
    rfl

/-- **Values with names of their own** are bound one behind another. -/
theorem Bindings.bindAll_eq_append (values : List (Slot × Option String)) (bs : Bindings)
    (h : (bs.map Prod.fst ++ (values.map Prod.fst).filterMap Slot.parameter?).Nodup) :
    bs.bindAll values = bs ++ Reading.params values := by
  induction values generalizing bs with
  | nil => simp [Bindings.bindAll, Reading.params]
  | cons x values ih =>
    rw [List.map_cons] at h
    cases hname : x.1.parameter? with
    | none =>
      rw [List.filterMap_cons_none hname] at h
      have hrest := ih bs h
      rw [Reading.params, List.filterMap_cons_none (by simp [hname])]
      rw [← Reading.params, ← hrest]
      simp [Bindings.bindAll, Bindings.bind?, hname]
    | some name =>
      rw [List.filterMap_cons_some hname] at h
      -- the name is not among those before it
      have hfresh : name ∉ bs.map Prod.fst := by
        intro hmem
        exact (List.nodup_append.1 h).2.2 name hmem name List.mem_cons_self rfl
      have hrest := ih (bs ++ [(name, x.2)]) (by simpa using h)
      rw [Reading.params, List.filterMap_cons_some (by simp [hname]; rfl), ← Reading.params]
      rw [List.append_cons, ← hrest, ← Bindings.bind_of_fresh bs x.2 hfresh]
      simp [Bindings.bindAll, Bindings.bind?, hname]

/-! ## Matching -/

/-- The parts of a pattern have its required slots. -/
theorem countP_isRequired_parts (slots : List Slot) :
    (parts slots).countP Part.isRequired = slots.countP fun s => !s.optional := by
  induction slots using parts.induct with
  | case1 => simp [parts]
  | case2 s ss hopt ih =>
    -- a group has optional slots only
    have hgroup : (ss.takeWhile s.joins).countP (fun s => !s.optional) = 0 := by
      rw [List.countP_eq_zero]
      intro t ht
      have hjoins := List.mem_takeWhile_imp ht
      unfold Slot.joins at hjoins
      split at hjoins
      · cases hjoins
      · simp only [Bool.and_eq_true] at hjoins
        simp [hjoins.1.2]
    rw [parts, if_pos hopt, List.countP_cons_of_neg (by simp [Part.isRequired]), ih,
      List.countP_cons_of_neg (by simp [hopt]),
      ← List.takeWhile_append_dropWhile (p := s.joins) (l := ss), List.countP_append, hgroup]
    simp
  | case3 s ss hopt ih =>
    rw [parts, if_neg hopt, List.countP_cons_of_pos rfl, ih,
      List.countP_cons_of_pos (by simpa using hopt)]

/-- **There is a reading** of enough tokens, and the walk along the pattern ends as it does. -/
theorem exists_reads {p : Pattern α} (hp : p.WellPlaced)
    (hnames : (p.slots.filterMap Slot.parameter?).Nodup) {keyword : Token} {rest : List Token}
    (hlen : p.required ≤ rest.length) :
    ∃ reading, Reads (keyword :: rest) 1 (parts p.ordered) reading ∧
      p.walkFrom (rest.map Token.text) = reading.walk ∧
      ∀ t place, reading = .mismatch t place → (keyword :: rest)[place]? = some t := by
  cases hw : p.walkFrom (rest.map Token.text) with
  | stuck place =>
    obtain ⟨t, ht⟩ := @getElem?_of_walkFrom_stuck α p hp keyword rest hlen place hw
    refine ⟨.mismatch t place, reads_of_walk_stuck hw ht, rfl, ?_⟩
    rintro _ _ ⟨⟩
    exact ht
  | done bs used =>
    obtain ⟨values, groups, hreads, hbs⟩ := @reads_of_walk_done (keyword :: rest) _ 1 used _ bs hw
    -- the names are those of the slots, so each value is bound under a name of its own
    have hnodup : ((values.map Prod.fst).filterMap Slot.parameter?).Nodup := by
      rw [hreads.slots_eq, flatMap_slots_parts]
      exact (((sortByKey_perm _ p.slots).filterMap Slot.parameter?).nodup_iff).2 hnames
    rw [Bindings.bindAll_eq_append values [] (by simpa using hnodup), List.nil_append] at hbs
    refine ⟨.complete values groups used, hreads, by rw [hbs]; rfl, ?_⟩
    rintro _ _ ⟨⟩

/-- **Matching in the window is reading.** With a placed pattern whose parameters have names of
their own, over enough tokens, there is one reading; matching the slots gives its parameters and
its place; and a directive that is made of it has used exactly the keyword, a token for every
required slot, and the tokens of the groups that were there. -/
theorem bindSlots_reads {p : Pattern α} (hp : p.Placed)
    (hnames : (p.slots.filterMap Slot.parameter?).Nodup) {tokens : List Token} {start : Nat}
    (hlen : start + p.required < tokens.length) :
    ∃ reading, Reads (tokens.drop start) 1 (parts p.ordered) reading ∧
      (∀ other, Reads (tokens.drop start) 1 (parts p.ordered) other → other = reading) ∧
      bindSlots ((tokens.drop start).take (p.reach + 1)) p.ordered {} = .ok reading.binding ∧
      (∀ values groups used, reading = .complete values groups used →
        used = 1 + p.slots.countP (fun s => !s.optional) + groups.flatten.length) ∧
      ∀ (r : Registry α) (keyword : Token), tokens[start]? = some keyword →
        r.find? keyword.text = some p →
        (∀ t place, reading = .mismatch t place →
          r.match keyword (tokens.drop (start + 1)) = .ok (.failed (.about t p.name
            (p.name ++ ": Invalid command arguments \x7b" ++ t.text ++ "\x7d")) place)) ∧
        ∀ values groups used, reading = .complete values groups used →
          ∀ node source consumed,
            r.match keyword (tokens.drop (start + 1)) = .ok (.made node source consumed) ↔
              consumed = used ∧ source = spaced ((tokens.drop start).take used) ∧
                p.validate (Reading.params values) = .ok .accepted ∧
                p.create (Reading.params values) = .ok node := by
  have hwell := hp.wellPlaced
  obtain ⟨keyword, hkeyword⟩ : ∃ t, tokens[start]? = some t :=
    ⟨_, List.getElem?_eq_getElem (by omega)⟩
  have hdrop : tokens.drop start = keyword :: tokens.drop (start + 1) := by
    obtain ⟨hs, rfl⟩ := List.getElem?_eq_some_iff.1 hkeyword
    exact List.drop_eq_getElem_cons hs
  have hrest : p.required ≤ (tokens.drop (start + 1)).length := by
    rw [List.length_drop]
    omega
  rw [hdrop]
  generalize tokens.drop (start + 1) = rest at hrest
  obtain ⟨reading, hreads, hwalk, hthere⟩ := @exists_reads α p hwell hnames keyword rest hrest
  have hreach := hwell.length_le_reach
  have hwindow := @bindSlots_eq_walk (keyword :: rest) p.reach p.ordered 0 1 [] hwell.consecutive
    hwell.together (by omega)
  rw [List.drop_succ_cons, List.drop_zero, ← Pattern.walkFrom, hwalk] at hwindow
  refine ⟨reading, hreads, fun other h => h.unique hreads, ?_, ?_, ?_⟩
  · rw [show ({} : Progress) = ⟨[], 0, 1⟩ from rfl, hwindow]
    cases reading with
    | complete => rfl
    | mismatch t place =>
      rw [Reading.walk, Walk.binding, hthere t place rfl]
      rfl
  · rintro values groups used rfl
    rw [hreads.cursor_eq, countP_isRequired_parts, Pattern.ordered,
      (sortByKey_perm _ p.slots).countP_eq]
  · intro r k hk hfind
    rw [hkeyword, Option.some.injEq] at hk
    subst hk
    constructor
    · rintro t place rfl
      rw [match_eq_walk rest hfind hwell, if_neg (by omega), hwalk, Reading.walk,
        Pattern.conclude, hthere t place rfl]
    · rintro values groups used rfl node source consumed
      rw [match_made_iff hfind hwell, hwalk, Reading.walk]
      constructor
      · rintro ⟨-, bs, hdone, hv, hc, hsource⟩
        obtain ⟨rfl, rfl⟩ := Walk.done.inj hdone
        exact ⟨rfl, hsource, hv, hc⟩
      · rintro ⟨rfl, hsource, hv, hc⟩
        exact ⟨hrest, _, rfl, hv, hc, hsource⟩

/-- A pattern with groups in front of a required slot and between two. -/
def paintPattern : Pattern String where
  name := "paint"
  slots := [
    { position := 5, shape := .exactly "now" },
    { position := 1, shape := .exactly "thickly", name := "how", optional := true,
      fallback := "thinly" },
    { position := 2, shape := .oneOf ["red", "blue"], name := "color" },
    { position := 3, shape := .exactly "with", optional := true, group := "coats" },
    { position := 4, shape := .digits, name := "coats", optional := true, fallback := "1",
      group := "coats" }]
  create := fun bs => bs.text "color"

/-- Tokens of which the pattern takes some from the middle. -/
def paintTokens : List Token :=
  [⟨.word, "please", 1, 0⟩, ⟨.word, "paint", 1, 7⟩, ⟨.word, "red", 1, 13⟩,
    ⟨.word, "with", 1, 17⟩, ⟨.word, "2", 1, 22⟩, ⟨.word, "now", 1, 24⟩, ⟨.word, "paint", 1, 28⟩]

theorem bindSlots_reads_paintTokens :
    paintPattern.Placed ∧ 1 + paintPattern.required < paintTokens.length ∧
      ∃ reading, Reads (paintTokens.drop 1) 1 (parts paintPattern.ordered) reading ∧
        reading.binding =
          .bound [("how", some "thinly"), ("color", some "red"), ("coats", some "2")] 5 := by
  have hplaced : paintPattern.Placed := ⟨by decide, by decide⟩
  have hlen : 1 + paintPattern.required < paintTokens.length := by decide
  obtain ⟨reading, hreads, -, hbinding, -⟩ := bindSlots_reads hplaced (by decide) hlen
  refine ⟨hplaced, hlen, reading, hreads, ?_⟩
  have hbound : bindSlots ((paintTokens.drop 1).take (paintPattern.reach + 1))
      paintPattern.ordered {} =
        .ok (.bound [("how", some "thinly"), ("color", some "red"), ("coats", some "2")] 5) := by
    decide +kernel
  rw [hbound, Except.ok.injEq] at hbinding
  exact hbinding.symm

end ClipScript
