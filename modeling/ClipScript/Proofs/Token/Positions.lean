/-
# What line and column say

A token starts at an index of its source, the start of its span. Its place says the same
in lines and columns: as many lines down as there are line feeds before the index, and as
many columns to the right as there are characters from the start of the line on. The
source is meant as it is written, with its separators of directives, since none of them
is a line feed.

`StandsAt` says this by indices, apart from how places are computed. It holds at the start
of a text, one character leads from an index to the next (`StandsAt.step`), and so every
place that is reached over some characters is right (`StandsAt.advance`). Further right in
the text is further along in the order of places (`StandsAt.before`), which is why a place
stands for one index only.
-/
import ClipScript.Proofs.Token.Appending
import ClipScript.Proofs.Token.Spans

set_option autoImplicit false

namespace ClipScript

variable {style : CommentStyle} {cs : List Char}

/-! ## Places and indices -/

/-- **The start of a line:** the index behind the last line feed before an index, or the start of
the text when there is none. -/
structure LineStart (cs : List Char) (n s : Nat) : Prop where
  le : s ≤ n
  begins : s = 0 ∨ cs[s - 1]? = some '\n'
  line : ∀ i, s ≤ i → i < n → cs[i]? ≠ some '\n'

/-- **The place of an index:** its line is counted by line feeds, its column from the start of the
line. -/
structure StandsAt (cs : List Char) (n : Nat) (p : Place) : Prop where
  line : p.line = 1 + (cs.take n).count '\n'
  offset : ∃ s, LineStart cs n s ∧ p.offset = n - s

theorem LineStart.unique {n s s' : Nat} (h : LineStart cs n s) (h' : LineStart cs n s') :
    s = s' := by
  -- behind the smaller of two there would be a line feed
  wlog hlt : s < s' generalizing s s'
  · rcases Nat.lt_or_ge s' s with hgt | hge
    · exact (this h' h hgt).symm
    · omega
  · have hfeed := h'.begins.resolve_left (by omega)
    have hle := h'.le
    exact absurd hfeed (h.line (s' - 1) (by omega) (by omega))

/-- On one line the line start stays. -/
theorem LineStart.mono {n m s : Nat} (h : LineStart cs n s) (hle : n ≤ m)
    (hline : ∀ i, n ≤ i → i < m → cs[i]? ≠ some '\n') : LineStart cs m s := by
  refine ⟨h.le.trans hle, h.begins, fun i hs hm => ?_⟩
  rcases Nat.lt_or_ge i n with hn | hn
  · exact h.line i hs hn
  · exact hline i hn hm

/-- What is counted up to an index, and from there on to another. -/
theorem count_take (cs : List Char) {n m : Nat} (hle : n ≤ m) :
    (cs.take m).count '\n' = (cs.take n).count '\n' + ((cs.drop n).take (m - n)).count '\n' := by
  rw [← List.count_append, ← List.take_add, Nat.add_sub_cancel' hle]

theorem standsAt_start (cs : List Char) : StandsAt cs 0 .start :=
  ⟨by rw [List.take_zero]; rfl, 0, ⟨Nat.le_refl 0, .inl rfl, fun i _ hi => absurd hi (by omega)⟩,
    rfl⟩

/-- **A character leads to the place of the next index.** -/
theorem StandsAt.step {n : Nat} {p : Place} {c : Char} (h : StandsAt cs n p)
    (hc : cs[n]? = some c) : StandsAt cs (n + 1) (p.step c) := by
  obtain ⟨hline, s, hs, hoffset⟩ := h
  have hcount : (cs.take (n + 1)).count '\n' = (cs.take n).count '\n' + [c].count '\n' := by
    rw [List.take_add_one, hc, List.count_append]
    rfl
  unfold Place.step
  by_cases hfeed : c = '\n'
  · subst hfeed
    rw [if_pos rfl]
    refine ⟨?_, n + 1, ⟨Nat.le_refl _, .inr (by simpa using hc), fun i _ _ => by omega⟩, ?_⟩
    · rw [hcount, hline]
      rfl
    · exact (Nat.sub_self _).symm
  · rw [if_neg hfeed]
    refine ⟨?_, s, hs.mono (Nat.le_succ n) fun i hn hm => ?_, ?_⟩
    · rw [hcount, hline, List.count_singleton, beq_false_of_ne hfeed]
      rfl
    · obtain rfl : i = n := by omega
      rw [hc]
      exact fun heq => hfeed (Option.some.inj heq)
    · have hle := hs.le
      dsimp only
      omega

/-- **Some characters lead to the place of the index behind them.** -/
theorem StandsAt.advance {n : Nat} {p : Place} (h : StandsAt cs n p) (ds rest : List Char)
    (hds : cs.drop n = ds ++ rest) : StandsAt cs (n + ds.length) (p.advance ds) := by
  induction ds generalizing n p with
  | nil => exact h
  | cons d ds ih =>
    have hd : cs[n]? = some d := by
      rw [← List.head?_drop, hds]
      rfl
    have hrest : cs.drop (n + 1) = ds ++ rest := by
      rw [← List.drop_drop, hds]
      rfl
    have hnext := ih (h.step hd) hrest
    rwa [Nat.add_assoc, Nat.add_comm 1] at hnext

/-- **Further right in the text is further along in the order of places.** -/
theorem StandsAt.before {n m : Nat} {p q : Place} (hp : StandsAt cs n p) (hq : StandsAt cs m q)
    (hlt : n < m) : p.Before q := by
  obtain ⟨hpline, s, hs, hpoffset⟩ := hp
  obtain ⟨hqline, s', hs', hqoffset⟩ := hq
  have hcount := count_take cs hlt.le
  rcases Nat.eq_zero_or_pos (((cs.drop n).take (m - n)).count '\n') with hzero | hpos
  · -- both are on one line
    have hsame : LineStart cs m s := by
      refine hs.mono hlt.le fun i hn hm hfeed => List.count_eq_zero.1 hzero ?_
      apply List.mem_of_getElem? (i := i - n)
      rw [List.getElem?_take_of_lt (by omega), List.getElem?_drop, Nat.add_sub_cancel' hn, hfeed]
    obtain rfl := hsame.unique hs'
    have hle := hs.le
    exact .inr ⟨by omega, by omega⟩
  · exact .inl (by omega)

theorem Place.not_before (p : Place) : ¬ p.Before p := by
  unfold Before
  omega

/-- A place stands for one index only. -/
theorem StandsAt.unique {n m : Nat} {p : Place} (hn : StandsAt cs n p) (hm : StandsAt cs m p) :
    n = m := by
  rcases Nat.lt_trichotomy n m with hlt | heq | hgt
  · exact absurd (hn.before hm hlt) p.not_before
  · exact heq
  · exact absurd (hm.before hn hgt) p.not_before

/-- Separators of directives do not matter to places. -/
theorem standsAt_blankSeparators {n : Nat} {p : Place} :
    StandsAt (blankSeparators cs) n p ↔ StandsAt cs n p := by
  have hfeed := getElem?_blankSeparators cs
  have hcount : ((blankSeparators cs).take n).count '\n' = (cs.take n).count '\n' := by
    rw [blankSeparators, ← List.map_take]
    exact count_blankSeparators _
  have hstart (s : Nat) : LineStart (blankSeparators cs) n s ↔ LineStart cs n s := by
    constructor
    · exact fun h => ⟨h.le, h.begins.imp_right (hfeed _).1, fun i hs hn => by
        rw [Ne, ← hfeed]
        exact h.line i hs hn⟩
    · exact fun h => ⟨h.le, h.begins.imp_right (hfeed _).2, fun i hs hn => by
        rw [Ne, hfeed]
        exact h.line i hs hn⟩
  constructor
  · rintro ⟨hline, s, hs, hoffset⟩
    exact ⟨by rw [hline, hcount], s, (hstart s).1 hs, hoffset⟩
  · rintro ⟨hline, s, hs, hoffset⟩
    exact ⟨by rw [hline, hcount], s, (hstart s).2 hs, hoffset⟩

/-! ## Tokens -/

/-- A token that comes from a piece of a text stands at the start of the span that does. -/
theorem FromPiece.standsAt {t : Token} {s : Span}
    (h : FromPiece .start 0 (pieces style cs) t s) : StandsAt cs s.start t.place := by
  obtain ⟨before, after, hpieces, hplace, hstart, -⟩ := h
  have hflatten := pieces_flatten style cs
  rw [hpieces, List.flatMap_append] at hflatten
  have hadvance := (standsAt_start cs).advance (before.flatMap Piece.chars) _ hflatten.symm
  rwa [← hplace, ← hstart] at hadvance

/-- **The place of a token says where in the source it starts,** no other index has the same place,
and the places of the tokens increase. -/
theorem standsAt_tokenize (style : CommentStyle) (source : String) :
    List.Forall₂ (fun t s => t.LiesAt style (blankSeparators source.toList) s ∧
        StandsAt source.toList s.start t.place ∧
        ∀ n, StandsAt source.toList n t.place → n = s.start)
      (tokenize style source) (tokenSpans style source) ∧
    (tokenize style source).Pairwise fun t u => t.place.Before u.place := by
  refine ⟨(forall₂_fromPiece .start 0 _).imp fun t s h => ?_, pairwise_tokenize style source⟩
  have hstands := standsAt_blankSeparators.1 h.standsAt
  exact ⟨h.liesAt, hstands, fun n hn => hn.unique hstands⟩

end ClipScript
