/-
# Matching as a walk

Matching counts in positions: a slot's place in the window is its position less the
slots passed over so far, and the window is cut where the last slot could be. This
file shows that all this arithmetic amounts to a walk. A cursor goes over the texts
after the keyword while the pattern is read part by part:

* a required slot needs the text under the cursor and moves past it;
* a group of optional slots moves past as many texts as it has slots if they all
  fit, and otherwise stays where it is and binds the fallbacks.

The walk never looks at a position, at a window, or at where a token stands in the
source. What a match depends on is therefore read off it: the texts it went over, and
why a group that stayed behind did not fit the next ones.

The one assumption is that the slots are *well placed*: their positions are
1, 2, …, and the slots of a group are in one piece.
-/
import ClipScript.Pattern.Matching

set_option autoImplicit false

namespace ClipScript

/-! ## Parts of a pattern -/

/-- Whether a later slot is there or not together with an optional one. -/
def Slot.joins (first s : Slot) : Bool :=
  match first.group with
  | none => false
  | some g => !g.isEmpty && s.optional && s.group == some g

/-- **A part of a pattern:** a required slot, or a group of optional ones. -/
inductive Part where
  | required (slot : Slot)
  | optional (first : Slot) (others : List Slot)

/-- The parts of a pattern, from its slots in order. -/
def parts : List Slot → List Part
  | [] => []
  | s :: ss =>
    if s.optional then .optional s (ss.takeWhile s.joins) :: parts (ss.dropWhile s.joins)
    else .required s :: parts ss
termination_by ss => ss.length
decreasing_by
  · have := (List.dropWhile_suffix s.joins (l := ss)).length_le
    simp only [List.length_cons]
    omega
  · simp

/-- Whether the slots of every group are next to each other. -/
def inOnePiece : List Slot → Bool
  | [] => true
  | s :: ss =>
    (!s.optional || (ss.dropWhile s.joins).all fun t => !s.joins t) && inOnePiece ss

/-- A group in one piece is what stands next to its first slot. -/
theorem filter_joins_eq {s : Slot} {ss : List Slot}
    (h : ((ss.dropWhile s.joins).all fun t => !s.joins t) = true) :
    ss.filter s.joins = ss.takeWhile s.joins := by
  have hfront : (ss.takeWhile s.joins).filter s.joins = ss.takeWhile s.joins :=
    List.filter_eq_self.2 (List.all_eq_true.1 List.all_takeWhile)
  have hbehind : (ss.dropWhile s.joins).filter s.joins = [] :=
    List.filter_eq_nil_iff.2 fun t ht => by simpa using List.all_eq_true.1 h t ht
  calc ss.filter s.joins
      = (ss.takeWhile s.joins ++ ss.dropWhile s.joins).filter s.joins := by
        rw [List.takeWhile_append_dropWhile]
    _ = ss.takeWhile s.joins := by rw [List.filter_append, hfront, hbehind, List.append_nil]

/-- What is left of such slots is in one piece too. -/
theorem inOnePiece_of_suffix {ss ts : List Slot} (h : ss <:+ ts) (ht : inOnePiece ts = true) :
    inOnePiece ss = true := by
  induction ts with
  | nil => rw [List.suffix_nil.1 h]; rfl
  | cons t ts ih =>
    rcases List.suffix_cons_iff.1 h with rfl | h
    · exact ht
    · exact ih h (Bool.and_eq_true_iff.1 ht).2

/-! ## The walk -/

/-- Whether texts have the shapes of some slots, one after another. -/
def fits : List Slot → List String → Bool
  | [], _ => true
  | _ :: _, [] => false
  | s :: ss, t :: ts => s.shape.accepts t && fits ss ts

/-- The parameters of a group whose texts are there. -/
def bindTexts : List Slot → List String → Bindings → Bindings
  | s :: ss, t :: ts, bs => bindTexts ss ts (bs.bind? s.parameter? (some t))
  | _, _, bs => bs

/-- The parameters of a group that is not there. -/
def bindFallbacks (group : List Slot) (bs : Bindings) : Bindings :=
  group.foldl (fun bs s => bs.bind? s.parameter? s.fallback) bs

/-- Where a walk ends: behind the last text it used, or before one that did not fit. -/
inductive Walk where
  | done (bindings : Bindings) (used : Nat)
  | stuck (place : Nat)
deriving DecidableEq

/-- **The walk** over some texts with the cursor at `c`. -/
def walk : List Part → List String → Bindings → Nat → Walk
  | [], _, bs, c => .done bs c
  | .required _ :: _, [], _, c => .stuck c
  | .required s :: ps, t :: ts, bs, c =>
    if s.shape.accepts t then walk ps ts (bs.bind? s.parameter? (some t)) (c + 1) else .stuck c
  | .optional s ss :: ps, ts, bs, c =>
    if fits (s :: ss) ts then
      walk ps (ts.drop (ss.length + 1)) (bindTexts (s :: ss) ts bs) (c + (ss.length + 1))
    else walk ps ts (bindFallbacks (s :: ss) bs) c

/-- What the end of a walk over tokens says about them. -/
def Walk.binding (tokens : List Token) : Walk → Except Fault Binding
  | .done bs used => .ok (.bound bs used)
  | .stuck place =>
    match tokens[place]? with
    | some t => .ok (.mismatch t place)
    | none => .error .noToken

/-! ## From positions to the cursor -/

/-- Slots whose positions are `n`, `n + 1`, and so on. -/
def Consecutive (n : Nat) (slots : List Slot) : Prop :=
  slots.map Slot.position = List.range' n slots.length

theorem consecutive_cons {n : Nat} {s : Slot} {ss : List Slot} :
    Consecutive n (s :: ss) ↔ s.position = n ∧ Consecutive (n + 1) ss := by
  simp [Consecutive, List.range'_succ]

theorem consecutive_append {n : Nat} {ss ts : List Slot} :
    Consecutive n (ss ++ ts) ↔ Consecutive n ss ∧ Consecutive (n + ss.length) ts := by
  induction ss generalizing n with
  | nil => simp [Consecutive]
  | cons s ss ih =>
    rw [List.cons_append, consecutive_cons, ih, consecutive_cons, and_assoc, List.length_cons,
      show n + 1 + ss.length = n + (ss.length + 1) by omega]

/-- The group of an optional slot, once it is in one piece. -/
theorem groupOf_eq (s : Slot) (ss : List Slot) (h : ss.filter s.joins = ss.takeWhile s.joins) :
    groupOf s ss = s :: ss.takeWhile s.joins := by
  rw [← h]
  unfold groupOf
  -- without a group, or with an empty name for one, the slot is alone
  cases hg : s.group with
  | none => simp [Slot.joins, hg]
  | some g =>
    by_cases he : g.isEmpty = true
    · simp [Slot.joins, hg, he]
    · have hjoin : s.joins = fun t => t.optional && t.group == some g := by
        funext t
        simp [Slot.joins, hg, he]
      simp [hjoin, he]

variable {tokens : List Token} {reach : Nat}

/-- The token at the cursor, in a window that reaches at least as far. -/
theorem tokenAt_take {c : Nat} (h : c ≤ reach) :
    tokenAt (tokens.take (reach + 1)) c =
      match tokens[c]? with
      | some t => .ok t
      | none => .error .noToken := by
  have hget : (tokens.take (reach + 1))[c]? = tokens[c]? :=
    List.getElem?_take_of_lt (by omega)
  have hneg : ¬ (c : Int) < 0 := by omega
  cases h : tokens[c]? with
  | none => simp only [tokenAt, if_neg hneg, hget, h]
  | some t => simp only [tokenAt, if_neg hneg, hget, h]

/-- The place of a slot whose position is as far from the cursor as slots were passed over. -/
theorem place_eq (bs : Bindings) (used c k : Nat) {s : Slot} (h : s.position = c + k) :
    (⟨bs, k, used⟩ : Progress).place s = c := by
  simp only [Progress.place, h]
  omega

theorem texts_of_getElem? {c : Nat} {t : Token} (h : tokens[c]? = some t) :
    (tokens.drop c).map Token.text = t.text :: (tokens.drop (c + 1)).map Token.text := by
  obtain ⟨hc, rfl⟩ := List.getElem?_eq_some_iff.1 h
  rw [List.drop_eq_getElem_cons hc, List.map_cons]

theorem texts_of_getElem?_none {c : Nat} (h : tokens[c]? = none) :
    (tokens.drop c).map Token.text = [] := by
  rw [List.drop_eq_nil_of_le (List.getElem?_eq_none_iff.1 h), List.map_nil]

/-- A group is present exactly if its slots fit the texts from the cursor on. -/
theorem groupPresent_eq (bs : Bindings) (used k : Nat) {g : List Slot} {c : Nat}
    (hpos : Consecutive (c + k) g) (hr : c + g.length ≤ reach + 1) :
    groupPresent (tokens.take (reach + 1)) ⟨bs, k, used⟩ g =
      .ok (fits g ((tokens.drop c).map Token.text)) := by
  induction g generalizing c with
  | nil => rfl
  | cons s g ih =>
    obtain ⟨hs, hg⟩ := consecutive_cons.1 hpos
    rw [List.length_cons] at hr
    rw [Nat.add_right_comm] at hg
    have hlen : ((c : Int) < ((tokens.take (reach + 1)).length : Int)) ↔ c < tokens.length := by
      rw [List.length_take]
      omega
    unfold groupPresent
    rw [place_eq bs used c k hs]
    -- the window reaches past the cursor, so only the tokens themselves can end here
    cases hget : tokens[c]? with
    | none =>
      have hc : tokens.length ≤ c := List.getElem?_eq_none_iff.1 hget
      rw [if_neg (by rw [hlen]; omega), texts_of_getElem?_none hget]
      rfl
    | some t =>
      have hc : c < tokens.length := (List.getElem?_eq_some_iff.1 hget).1
      rw [if_pos (hlen.2 hc), tokenAt_take (by omega), hget, texts_of_getElem? hget]
      simp only [fits, bind, Except.bind]
      by_cases ha : s.shape.accepts t.text = true
      · rw [if_pos ha, ih hg (by omega), ha, Bool.true_and]
      · simp [ha]

theorem bindGroup_absent (window : List Token) (p : Progress) (g : List Slot) (bs : Bindings) :
    bindGroup window p false g bs = .ok (bindFallbacks g bs) := by
  induction g generalizing bs with
  | nil => rfl
  | cons s g ih =>
    unfold bindGroup
    cases hn : s.parameter? with
    | none => simp [ih, bindFallbacks, hn, Bindings.bind?]
    | some n => simp [ih, bindFallbacks, hn, Bindings.bind?]

/-- A present group binds the texts from the cursor on. -/
theorem bindGroup_present (bs₀ : Bindings) (used k : Nat) {g : List Slot} {c : Nat} (bs : Bindings)
    (hpos : Consecutive (c + k) g) (hr : c + g.length ≤ reach + 1)
    (hfit : fits g ((tokens.drop c).map Token.text) = true) :
    bindGroup (tokens.take (reach + 1)) ⟨bs₀, k, used⟩ true g bs =
      .ok (bindTexts g ((tokens.drop c).map Token.text) bs) := by
  induction g generalizing c bs with
  | nil => rfl
  | cons s g ih =>
    obtain ⟨hs, hg⟩ := consecutive_cons.1 hpos
    rw [List.length_cons] at hr
    rw [Nat.add_right_comm] at hg
    -- a group that fits has a token for each of its slots
    cases hget : tokens[c]? with
    | none =>
      rw [texts_of_getElem?_none hget] at hfit
      cases hfit
    | some t =>
      rw [texts_of_getElem? hget] at hfit ⊢
      have htail : fits g ((tokens.drop (c + 1)).map Token.text) = true :=
        (Bool.and_eq_true_iff.1 hfit).2
      have hrec := fun bs => ih bs hg (by omega) htail
      unfold bindGroup
      cases hn : s.parameter? with
      | none => simp only [hrec, bindTexts, hn, Bindings.bind?]
      | some n =>
        simp only [place_eq bs₀ used c k hs, tokenAt_take (show c ≤ reach by omega), hget, bind,
          Except.bind, hrec, bindTexts, hn, Bindings.bind?]

/-- The last slot of a group stands as far behind the cursor as the group is long. -/
theorem lastPlace_eq (bs : Bindings) (used k c : Nat) (s : Slot) {g : List Slot}
    (hpos : Consecutive (c + k) (s :: g)) :
    lastPlace ⟨bs, k, used⟩ s (s :: g) = (c + g.length : Nat) := by
  have hlast : ((s :: g).map Slot.position).getLast? = some (c + k + g.length) := by
    rw [show (s :: g).map Slot.position = _ from hpos, List.getLast?_range']
    simp
  rw [List.getLast?_map, Option.map_eq_some_iff] at hlast
  obtain ⟨l, hl, hp⟩ := hlast
  rw [lastPlace, hl, Option.getD_some]
  exact place_eq bs used (c + g.length) k (by omega)

/-- **Matching slots is walking:** with `k` slots passed over and the cursor at `c`, matching
well-placed slots in the window comes to what the walk over the texts from `c` on says. The
induction is on the parts, and the invariant is that the first slot left has position `c + k`. -/
theorem bindSlots_eq_walk (slots : List Slot) (k c : Nat) (bs : Bindings)
    (hpos : Consecutive (c + k) slots) (hgroup : inOnePiece slots = true)
    (hr : c + k + slots.length ≤ reach + 1) :
    bindSlots (tokens.take (reach + 1)) slots ⟨bs, k, c⟩ =
      (walk (parts slots) ((tokens.drop c).map Token.text) bs c).binding tokens := by
  induction slots using parts.induct generalizing k c bs with
  | case1 => simp [bindSlots, parts, walk, Walk.binding]
  | case2 s ss hopt ih =>
    -- the slots that belong to the group are the ones right behind its first
    have hfilter : ss.filter s.joins = ss.takeWhile s.joins :=
      filter_joins_eq (by simpa [hopt] using (Bool.and_eq_true_iff.1 hgroup).1)
    have hsplit := List.takeWhile_append_dropWhile (p := s.joins) (l := ss)
    have hof := groupOf_eq s ss hfilter
    rw [bindSlots, if_pos hopt, parts, if_pos hopt, hof, walk]
    -- from here on the slots are the group and the ones after it
    generalize ss.takeWhile s.joins = g at *
    generalize ss.dropWhile s.joins = later at *
    subst hsplit
    rw [← List.cons_append, consecutive_append] at hpos
    obtain ⟨hposg, hposl⟩ := hpos
    rw [List.length_cons] at hposl
    rw [List.length_cons, List.length_append] at hr
    have hlater := inOnePiece_of_suffix ⟨s :: g, rfl⟩ hgroup
    have hdrop : (g ++ later).drop ((s :: g).length - 1) = later := by
      rw [List.length_cons, Nat.add_sub_cancel, List.drop_left]
    have hin : c + (s :: g).length ≤ reach + 1 := by
      rw [List.length_cons]
      omega
    simp only [groupPresent_eq bs c k hposg hin, bind, Except.bind, hdrop]
    -- a group that fits moves the cursor on, and one that does not adds its slots to those
    -- passed over: either way the next slot stands as far on as the group is long
    by_cases hfit : fits (s :: g) ((tokens.drop c).map Token.text) = true
    · simp only [hfit, bindGroup_present bs c k bs hposg hin hfit, if_true, Progress.through,
        lastPlace_eq bs c k c s hposg]
      rw [show max c (((c + g.length : Nat) : Int) + 1).toNat = c + (g.length + 1) by omega,
        ← List.map_drop, List.drop_drop]
      rw [Nat.add_right_comm] at hposl
      exact ih k (c + (g.length + 1)) _ hposl hlater (by omega)
    · rw [Bool.not_eq_true] at hfit
      simp only [hfit, bindGroup_absent, Bool.false_eq_true, if_false, List.length_cons]
      rw [Nat.add_assoc] at hposl
      exact ih (k + (g.length + 1)) c _ hposl hlater (by omega)
  | case3 s ss hopt ih =>
    obtain ⟨hs, hss⟩ := consecutive_cons.1 hpos
    rw [List.length_cons] at hr
    rw [Nat.add_right_comm] at hss
    have hlater := (Bool.and_eq_true_iff.1 hgroup).2
    rw [bindSlots, if_neg hopt, parts, if_neg hopt, place_eq bs c c k hs, tokenAt_take (by omega)]
    -- a required slot needs a token under the cursor, and one of its shape
    cases hget : tokens[c]? with
    | none => simp [texts_of_getElem?_none hget, walk, Walk.binding, hget, bind, Except.bind]
    | some t =>
      rw [texts_of_getElem? hget, walk]
      simp only [bind, Except.bind]
      by_cases ha : s.shape.accepts t.text = true
      · rw [if_pos ha, if_pos ha, Progress.through,
          show max c ((c : Int) + 1).toNat = c + 1 by omega]
        exact ih k (c + 1) _ hss hlater (by omega)
      · rw [if_neg ha, if_neg ha]
        simp [Walk.binding, hget]

end ClipScript
