/-
# Where the tokens of a script stand

Parsing looks at the texts of tokens. Their places only go into diagnostics, which point at
them. So when tokens are moved, the segments are the same with their tokens moved, and the
diagnostics go along (`Moves.segments_eq`).

That is so for every registry of well-placed patterns, since matching is then a walk over
texts, and for every way of moving tokens that keeps their texts (`Moves`).
-/
import ClipScript.Proofs.Matching.Outcome
import ClipScript.Script
import Mathlib.Data.List.Basic

set_option autoImplicit false

namespace ClipScript

/-! ## Moving -/

/-- **Tokens that are moved:** they keep their texts, and diagnostics point at them where they are
then. -/
structure Moves (move : Token → Token) (along : Diagnostic → Diagnostic) : Prop where
  text : ∀ t, (move t).text = t.text
  about : ∀ t command message detail,
    along (.about t command message detail) = .about (move t) command message detail

variable {α : Type} {move : Token → Token} {along : Diagnostic → Diagnostic}

/-- The outcome of a directive whose tokens are moved. -/
def Outcome.moved (along : Diagnostic → Diagnostic) : Outcome α → Outcome α
  | made node source consumed => made node source consumed
  | failed d failedAt => failed (along d) failedAt

/-- A segment whose tokens are moved. -/
def Segment.moved (move : Token → Token) (along : Diagnostic → Diagnostic) :
    Segment α → Segment α
  | comment node t => comment node (move t)
  | directive node source ts => directive node source (ts.map move)
  | rejected d ts => rejected (along d) (ts.map move)

namespace Moves

variable (h : Moves move along)

include h

/-! ## Directives -/

theorem map_text (ts : List Token) : (ts.map move).map Token.text = ts.map Token.text := by
  rw [List.map_map]
  exact List.map_congr_left fun t _ => h.text t

theorem isComment_eq (t : Token) : (move t).isComment = t.isComment := by
  rw [Token.isComment, h.text, Token.isComment]

theorem starts_eq (r : Registry α) (t : Token) : r.starts (move t) = r.starts t := by
  rw [Registry.starts, h.isComment_eq, h.text, Registry.starts]

theorem conclude_eq (p : Pattern α) (keyword : Token) (tokens : List Token) (w : Walk) :
    p.conclude (move keyword) (tokens.map move) w =
      (p.conclude keyword tokens w).map (Outcome.moved along) := by
  cases w with
  | stuck place =>
    rw [Pattern.conclude, Pattern.conclude, List.getElem?_map]
    cases tokens[place]? with
    | none => rfl
    | some t =>
      simp only [Option.map_some, Except.map, Outcome.moved, h.about, h.text]
  | done bs used =>
    rw [Pattern.conclude, Pattern.conclude, ← List.map_take, spaced, h.map_text, ← spaced]
    rcases p.validate bs with f | _ | detail
    · rfl
    · cases p.create bs with
      | error f => rfl
      | ok node => rfl
    · simp only [bind, Except.bind, Except.map, Outcome.moved, h.about]

variable {r : Registry α} (hr : ∀ p ∈ r.patterns, p.WellPlaced)

include hr in
/-- **Where a directive stands** does not matter to what becomes of it. -/
theorem match_eq (keyword : Token) (rest : List Token) :
    r.match (move keyword) (rest.map move) =
      (r.match keyword rest).map (Outcome.moved along) := by
  cases hfind : r.find? keyword.text with
  | none =>
    rw [Registry.match, Registry.match, h.text, hfind]
    simp only [Except.map, Outcome.moved, h.about]
  | some p =>
    have hp := hr p (List.mem_of_find?_eq_some hfind)
    have hfind' : r.find? (move keyword).text = some p := by rw [h.text, hfind]
    rw [match_eq_walk rest hfind hp, match_eq_walk _ hfind' hp, List.length_map, h.map_text,
      ← List.map_cons, h.conclude_eq]
    by_cases hlen : rest.length < p.required
    · rw [if_pos hlen, if_pos hlen]
      simp only [Except.map, Outcome.moved, h.about]
    · rw [if_neg hlen, if_neg hlen]

/-! ## Segments -/

theorem length_takeWhile (ts : List Token) :
    ((ts.map move).takeWhile fun t => !r.starts t).length =
      (ts.takeWhile fun t => !r.starts t).length := by
  have hsame : (fun t => !r.starts t) ∘ move = fun t => !r.starts t := by
    funext t
    rw [Function.comp_apply, h.starts_eq]
  rw [List.takeWhile_map, List.length_map, hsame]

theorem rejectedLength_eq (rest : List Token) (failedAt : Nat) :
    r.rejectedLength (rest.map move) failedAt = r.rejectedLength rest failedAt := by
  cases failedAt with
  | zero => rw [Registry.rejectedLength, Registry.rejectedLength, h.length_takeWhile]
  | succ f =>
    have hcomment : (rest[f]?.map move).any Token.isComment = rest[f]?.any Token.isComment := by
      cases rest[f]? with
      | none => rfl
      | some t => exact h.isComment_eq t
    rw [Registry.rejectedLength, Registry.rejectedLength, List.getElem?_map, hcomment,
      ← List.map_drop, h.length_takeWhile]

include hr in
/-- **Where tokens stand** does not matter to how they are cut. The induction is on their number,
since a step goes on behind the segment that it cuts off. -/
theorem segments_eq (ts : List Token) :
    r.segments (ts.map move) = (r.segments ts).map (List.map (Segment.moved move along)) := by
  induction hlen : ts.length using Nat.strongRecOn generalizing ts with
  | ind length ih =>
    subst hlen
    cases ts with
    | nil =>
      rw [List.map_nil, Registry.segments]
      rfl
    | cons t ts =>
      have hrest : ∀ k, r.segments ((ts.drop k).map move) =
          (r.segments (ts.drop k)).map (List.map (Segment.moved move along)) := by
        intro k
        apply ih _ _ (ts.drop k) rfl
        rw [List.length_drop, List.length_cons]
        omega
      rw [List.map_cons, Registry.segments, Registry.segments, h.isComment_eq]
      by_cases hc : t.isComment = true
      · have hnext := hrest 0
        rw [List.drop_zero] at hnext
        rw [if_pos hc, if_pos hc, hnext, h.text]
        cases r.segments ts with
        | error f => rfl
        | ok segments => rfl
      · rw [if_neg hc, if_neg hc, h.match_eq hr]
        rcases r.match t ts with f | ⟨node, source, consumed⟩ | ⟨d, failedAt⟩
        · rfl
        · simp only [Except.map, Outcome.moved, bind, Except.bind, ← List.map_drop, hrest,
            ← List.map_take]
          cases r.segments (ts.drop (consumed - 1)) with
          | error f => rfl
          | ok segments => rfl
        · simp only [Except.map, Outcome.moved, bind, Except.bind, ← List.map_drop, hrest,
            ← List.map_take, h.rejectedLength_eq]
          cases r.segments (ts.drop (r.rejectedLength ts failedAt)) with
          | error f => rfl
          | ok segments => rfl

/-! ## What segments say -/

theorem understood_eq (segments : List (Segment α)) :
    (segments.map (Segment.moved move along)).filterMap Segment.understood? =
      segments.filterMap Segment.understood? := by
  rw [List.filterMap_map]
  apply List.filterMap_congr
  intro g _
  cases g with
  | comment node t => simp only [Function.comp_apply, Segment.moved, Segment.understood?, h.text]
  | directive node source ts => rfl
  | rejected d ts => rfl

omit h in
theorem diagnostics_eq (segments : List (Segment α)) :
    (segments.map (Segment.moved move along)).filterMap Segment.diagnostic? =
      (segments.filterMap Segment.diagnostic?).map along := by
  rw [List.filterMap_map, List.map_filterMap]
  apply List.filterMap_congr
  intro g _
  cases g with
  | comment node t => rfl
  | directive node source ts => rfl
  | rejected d ts => rfl

end Moves

end ClipScript
