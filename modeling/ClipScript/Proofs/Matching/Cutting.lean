/-
# Cutting off what follows a directive

A directive is matched by looking at the tokens behind it as well: a group of optional
slots that is not there may have been looked for among them. None of these tokens makes a
difference to the walk, so one would expect a directive to be the same when they are
cut off.

It is, but for one thing. Whether there are enough tokens is asked before any slot is
looked at, and what is asked for is the position of the last required slot in the pattern.
A group in front of that slot which is not there makes the directive shorter than its
pattern by as many tokens. Such a directive is made while other tokens follow, and is
incomplete as the last one of a script. So a directive can be cut off exactly if it has
used a token for the last required position (`match_cut_iff`), and always if the required
slots come first (`required_lt_of_first`).
-/
import ClipScript.Proofs.Matching.Reading

set_option autoImplicit false

namespace ClipScript

variable {α : Type}

/-! ## The last required position -/

/-- The last position is that of some slot. -/
theorem exists_position_eq_lastPosition {slots : List Slot} (h : Pattern.lastPosition slots ≠ 0) :
    ∃ s ∈ slots, s.position = Pattern.lastPosition slots := by
  -- the maximum is what it starts from, or the position of some slot
  have hcases : ∀ (l : List Slot) (n : Nat), l.foldl (fun n s => max n s.position) n = n ∨
      ∃ s ∈ l, s.position = l.foldl (fun n s => max n s.position) n := by
    intro l
    induction l with
    | nil => intro n; exact .inl rfl
    | cons t l ih =>
      intro n
      rw [List.foldl_cons]
      rcases ih (max n t.position) with heq | ⟨s, hs, heq⟩
      · rw [heq]
        by_cases hle : t.position ≤ n
        · exact .inl (Nat.max_eq_left hle)
        · exact .inr ⟨t, List.mem_cons_self, by omega⟩
      · exact .inr ⟨s, List.mem_cons_of_mem _ hs, heq⟩
  exact (hcases slots 0).resolve_left h

/-- Where the required slots come first, there are as many as the last required position says. -/
theorem required_le_countP {p : Pattern α} (hp : p.Placed)
    (hfirst : ∀ s ∈ p.slots, ∀ t ∈ p.slots, s.optional = true → t.optional = false →
      t.position < s.position) :
    p.required ≤ p.ordered.countP fun s => !s.optional := by
  by_cases hzero : p.required = 0
  · omega
  · obtain ⟨last, hlast, hposition⟩ := exists_position_eq_lastPosition hzero
    obtain ⟨hmem, hrequired⟩ := List.mem_filter.1 hlast
    have hrange : p.ordered.map Slot.position = List.range' 1 p.ordered.length := hp.consecutive
    -- the positions are those in the list, so the last required slot is among the first
    have hle : p.required ≤ p.ordered.length := by
      have hin : last.position ∈ p.ordered.map Slot.position :=
        List.mem_map_of_mem (Pattern.mem_ordered.2 hmem)
      rw [hrange, List.mem_range'_1] at hin
      rw [Pattern.required, ← hposition]
      omega
    -- no optional slot stands before it
    have hall : ∀ s ∈ p.ordered.take p.required, (!s.optional) = true := by
      intro s hs
      rw [Bool.not_eq_true']
      by_contra hopt
      rw [Bool.not_eq_false] at hopt
      have hlt := hfirst s (Pattern.mem_ordered.1 (List.mem_of_mem_take hs)) last hmem hopt
        (by simpa using hrequired)
      have hin : s.position ∈ (p.ordered.take p.required).map Slot.position :=
        List.mem_map_of_mem hs
      rw [List.map_take, hrange, List.take_range'_of_length_ge hle, List.mem_range'_1] at hin
      rw [Pattern.required, ← hposition] at hin
      omega
    calc p.required
        = (p.ordered.take p.required).length := by rw [List.length_take, Nat.min_eq_left hle]
      _ = (p.ordered.take p.required).countP fun s => !s.optional :=
          (List.countP_eq_length.2 hall).symm
      _ ≤ p.ordered.countP fun s => !s.optional := (List.take_sublist _ _).countP_le

/-- **Where the required slots come first,** a walk that is done has used a token for the last
required position. -/
theorem required_lt_of_first {p : Pattern α} (hp : p.Placed)
    (hfirst : ∀ s ∈ p.slots, ∀ t ∈ p.slots, s.optional = true → t.optional = false →
      t.position < s.position)
    {texts : List String} {bs : Bindings} {used : Nat} (h : p.walkFrom texts = .done bs used) :
    p.required < used := by
  have hused := walk_required h
  have hle := required_le_countP hp hfirst
  rw [countP_isRequired_parts] at hused
  omega

/-! ## Directives that are cut off -/

/-- **A directive that is cut off** behind the tokens it used is the same, or it is incomplete
because it has none for the last required position. -/
theorem match_take {r : Registry α} {p : Pattern α} {keyword : Token} {rest : List Token}
    (hfind : r.find? keyword.text = some p) (hp : p.WellPlaced) {node : α} {source : String}
    {consumed : Nat} (h : r.match keyword rest = .ok (.made node source consumed)) :
    r.match keyword (rest.take (consumed - 1)) =
      if p.required < consumed then .ok (.made node source consumed)
      else .ok (.failed (.about keyword p.name ("Incomplete command: " ++ p.name)) 0) := by
  obtain ⟨-, bs, hwalk, hv, hc, hsource⟩ := (match_made_iff hfind hp).1 h
  have hstop := walkFrom_stop p (rest.map Token.text)
  rw [hwalk, Walk.stop, List.length_map] at hstop
  have hlength : (rest.take (consumed - 1)).length = consumed - 1 := by
    rw [List.length_take]
    omega
  by_cases hlt : p.required < consumed
  · rw [if_pos hlt]
    refine (match_made_iff hfind hp).2 ⟨by omega, bs, ?_, hv, hc, ?_⟩
    · rw [List.map_take]
      exact walkFrom_take hwalk
    · -- the keyword and the tokens behind it are the ones that were used
      obtain ⟨n, rfl⟩ : ∃ n, consumed = n + 1 := ⟨consumed - 1, by omega⟩
      rw [hsource, Nat.add_sub_cancel, List.take_succ_cons, List.take_succ_cons, List.take_take,
        Nat.min_self]
  · rw [if_neg hlt, match_eq_walk _ hfind hp, if_pos (by omega)]

/-- **Cutting a list of tokens** behind a directive that is made leaves it as it is exactly if it
has used a token for the last required position. Otherwise it is incomplete; and this does not
happen where the required slots come first. -/
theorem match_cut_iff {r : Registry α} (hr : ∀ p ∈ r.patterns, p.Placed) {tokens : List Token}
    {start : Nat} {keyword : Token} (hkeyword : tokens[start]? = some keyword) {node : α}
    {source : String} {consumed : Nat}
    (h : r.match keyword (tokens.drop (start + 1)) = .ok (.made node source consumed)) :
    (tokens.take (start + consumed))[start]? = some keyword ∧
    ∃ p, r.find? keyword.text = some p ∧
      (r.match keyword ((tokens.take (start + consumed)).drop (start + 1)) =
        .ok (.made node source consumed) ↔ p.required < consumed) ∧
      (consumed ≤ p.required →
        r.match keyword ((tokens.take (start + consumed)).drop (start + 1)) =
          .ok (.failed (.about keyword p.name ("Incomplete command: " ++ p.name)) 0)) ∧
      ((∀ s ∈ p.slots, ∀ t ∈ p.slots, s.optional = true → t.optional = false →
        t.position < s.position) → p.required < consumed) := by
  -- only a keyword can have made something
  obtain ⟨p, hfind⟩ : ∃ p, r.find? keyword.text = some p := by
    cases hfind : r.find? keyword.text with
    | none =>
      rw [Registry.match, hfind] at h
      cases h
    | some p => exact ⟨p, rfl⟩
  have hplaced := hr p (List.mem_of_find?_eq_some hfind)
  obtain ⟨-, bs, hwalk, -⟩ := (match_made_iff hfind hplaced.wellPlaced).1 h
  have hstop := (walkFrom_stop p ((tokens.drop (start + 1)).map Token.text)).1
  rw [hwalk, Walk.stop] at hstop
  have hcut : (tokens.take (start + consumed)).drop (start + 1) =
      (tokens.drop (start + 1)).take (consumed - 1) := by
    rw [List.drop_take, show start + consumed - (start + 1) = consumed - 1 by omega]
  have htake := match_take hfind hplaced.wellPlaced h
  rw [hcut]
  refine ⟨?_, p, hfind, ?_, ?_, fun hfirst => required_lt_of_first hplaced hfirst hwalk⟩
  · rw [List.getElem?_take_of_lt (by omega), hkeyword]
  · rw [htake]
    by_cases hlt : p.required < consumed
    · rw [if_pos hlt]
      exact ⟨fun _ => hlt, fun _ => rfl⟩
    · rw [if_neg hlt]
      refine ⟨?_, fun hlt' => absurd hlt' hlt⟩
      rintro ⟨⟩
  · intro hle
    rw [htake, if_neg (by omega)]

/-- A pattern with a word that may stand in front of the one that must be there. -/
def brushPattern : Pattern String where
  name := "paint"
  slots := [
    { position := 1, shape := .exactly "thickly", optional := true },
    { position := 2, shape := .oneOf ["red", "blue"], name := "color" }]
  create := fun bs => bs.text "color"

/-- The registry with that pattern only. -/
def brushes : Registry String := ⟨[brushPattern], id⟩

theorem placed_brushes : ∀ p ∈ brushes.patterns, p.Placed := by
  intro p hp
  obtain rfl : p = brushPattern := List.mem_singleton.1 hp
  exact ⟨by decide, by decide⟩

/-- Words one after another in a line. -/
def lineOf (words : List String) : List Token := words.map fun w => ⟨.word, w, 1, 0⟩

theorem match_cut_iff_thickly :
    brushes.match ⟨.word, "paint", 1, 0⟩ (lineOf ["thickly", "red", "now"]) =
        .ok (.made "red" "paint thickly red" 3) ∧
      brushes.match ⟨.word, "paint", 1, 0⟩ (lineOf ["thickly", "red"]) =
        .ok (.made "red" "paint thickly red" 3) := by
  have hmade : brushes.match ⟨.word, "paint", 1, 0⟩ (lineOf ["thickly", "red", "now"]) =
      .ok (.made "red" "paint thickly red" 3) := by
    decide +kernel
  refine ⟨hmade, ?_⟩
  obtain ⟨-, p, hfind, hcut, -⟩ := @match_cut_iff String brushes placed_brushes
    (lineOf ["paint", "thickly", "red", "now"]) 0 ⟨.word, "paint", 1, 0⟩ rfl _ _ _ hmade
  obtain rfl : brushPattern = p := Option.some.inj hfind
  exact hcut.2 (by decide)

/-- **Cutting can make a directive incomplete:** one that leaves out the word in front. -/
theorem match_cut_incomplete :
    brushes.match ⟨.word, "paint", 1, 0⟩ (lineOf ["red", "now"]) =
        .ok (.made "red" "paint red" 2) ∧
      brushes.match ⟨.word, "paint", 1, 0⟩ (lineOf ["red"]) =
        .ok (.failed (.about ⟨.word, "paint", 1, 0⟩ "paint" "Incomplete command: paint") 0) ∧
      ¬ ∀ r : Registry String, (∀ p ∈ r.patterns, p.Placed) →
        ∀ (tokens : List Token) (start : Nat) (keyword : Token) (node source : String)
          (consumed : Nat), tokens[start]? = some keyword →
          r.match keyword (tokens.drop (start + 1)) = .ok (.made node source consumed) →
          r.match keyword ((tokens.take (start + consumed)).drop (start + 1)) =
            .ok (.made node source consumed) := by
  have hmade : brushes.match ⟨.word, "paint", 1, 0⟩ (lineOf ["red", "now"]) =
      .ok (.made "red" "paint red" 2) := by
    decide +kernel
  have hshort : brushes.match ⟨.word, "paint", 1, 0⟩ (lineOf ["red"]) =
      .ok (.failed (.about ⟨.word, "paint", 1, 0⟩ "paint" "Incomplete command: paint") 0) := by
    decide +kernel
  refine ⟨hmade, hshort, ?_⟩
  intro hall
  have hcut := hall brushes placed_brushes (lineOf ["paint", "red", "now"]) 0
    ⟨.word, "paint", 1, 0⟩ "red" "paint red" 2 rfl hmade
  rw [show ((lineOf ["paint", "red", "now"]).take (0 + 2)).drop (0 + 1) = lineOf ["red"] from rfl,
    hshort] at hcut
  cases hcut

end ClipScript
