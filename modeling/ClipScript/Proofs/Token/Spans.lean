/-
# What part of a text each token is

Cutting a text into tokens leaves out blanks, and at most one quote, which no other
follows. This file says so by the indices of the text. Every token has a *span*, the
indices from its first character on up to the one behind its last, and lies there as a
token of its kind does (`Token.LiesAt`): it is what stands in the text at its span, it goes
as far as a token of its kind goes, and no word is cut off on its left. The spans are in
order and apart, and what none of them has is left out (`covers_tokenize`).

All this is read off the pieces of the text. A token and its span come from the same piece
(`forall₂_fromPiece`), and an index that no span has is that of a piece which is no token
(`gap_of_not_has`).
-/
import ClipScript.Proofs.Token.Places
import Mathlib.Data.List.Forall2

set_option autoImplicit false

namespace ClipScript

open Text

variable {style : CommentStyle}

/-! ## Spans -/

/-- **A span:** the indices from a start on, up to a stop. -/
structure Span where
  start : Nat
  stop : Nat
deriving DecidableEq, Repr

/-- Whether an index is in a span. -/
def Span.Has (s : Span) (n : Nat) : Prop := s.start ≤ n ∧ n < s.stop

/-- The spans of the tokens among pieces that begin at an index. -/
def spansFrom (n : Nat) : List Piece → List Span
  | [] => []
  | .gap _ :: ps => spansFrom (n + 1) ps
  | .lexeme _ cs :: ps => ⟨n, n + cs.length⟩ :: spansFrom (n + cs.length) ps

/-- **The spans of the tokens** of a source. -/
def tokenSpans (style : CommentStyle) (source : String) : List Span :=
  spansFrom 0 (pieces style (blankSeparators source.toList))

/-- **Where a token lies:** the text has it at its span, it goes as far as a token of its kind, and
no word has a word character in front of it. -/
def Token.LiesAt (t : Token) (style : CommentStyle) (text : List Char) (s : Span) : Prop :=
  ∃ before after, text = before ++ t.text.toList ++ after ∧
    s = ⟨before.length, before.length + t.text.toList.length⟩ ∧
    Piece.Runs style (.lexeme t.kind t.text.toList) after ∧
    (t.kind = .word → ∀ c ∈ before.getLast?, isWordChar c = false)

/-- **Tokens that cover a text** but for blanks and a last quote: each lies at its span, the spans
are in order and apart, and comments are known by how they begin. -/
structure Covers (style : CommentStyle) (text : List Char) (tokens : List Token)
    (spans : List Span) : Prop where
  lie : List.Forall₂ (fun t s => t.LiesAt style text s) tokens spans
  nonempty : ∀ s ∈ spans, s.start < s.stop
  ordered : spans.Pairwise fun s s' => s.stop ≤ s'.start
  gaps : ∀ before c after, text = before ++ c :: after → (∀ s ∈ spans, ¬ s.Has before.length) →
    isBlank c = true ∨ c = '"' ∧ '"' ∉ after
  comments : ∀ t ∈ tokens, t.isComment = true ↔ t.kind = .comment

/-! ## Pieces and their spans -/

/-- **A token and a span that come from the same piece,** when the pieces begin at a place and an
index. -/
def FromPiece (p : Place) (n : Nat) (ps : List Piece) (t : Token) (s : Span) : Prop :=
  ∃ before after, ps = before ++ .lexeme t.kind t.text.toList :: after ∧
    t.place = p.advance (before.flatMap Piece.chars) ∧
    s.start = n + (before.flatMap Piece.chars).length ∧
    s.stop = s.start + t.text.toList.length

/-- A piece in front changes nothing but the place and the index at which the others begin. -/
theorem FromPiece.behind (p : Place) (n : Nat) (q : Piece) {ps : List Piece} (t : Token)
    (s : Span) (h : FromPiece (p.advance q.chars) (n + q.chars.length) ps t s) :
    FromPiece p n (q :: ps) t s := by
  obtain ⟨before, after, rfl, hplace, hstart, hstop⟩ := h
  refine ⟨q :: before, after, rfl, ?_, ?_, hstop⟩
  · rw [hplace, List.flatMap_cons, Place.advance_append]
  · rw [hstart, List.flatMap_cons, List.length_append, Nat.add_assoc]

/-- **Every token has a span** that comes from its piece. -/
theorem forall₂_fromPiece (p : Place) (n : Nat) (ps : List Piece) :
    List.Forall₂ (FromPiece p n ps) (placeTokens p ps) (spansFrom n ps) := by
  induction ps generalizing p n with
  | nil => exact .nil
  | cons q ps ih =>
    rcases q with c | ⟨kind, cs⟩
    · exact (ih (p.step c) (n + 1)).imp (FromPiece.behind p n (.gap c))
    · have hcs : (String.ofList cs).toList = cs := String.toList_ofList
      refine .cons ⟨[], ps, ?_, rfl, rfl, ?_⟩ ((ih (p.advance cs) (n + cs.length)).imp
        (FromPiece.behind p n (.lexeme kind cs)))
      · rw [hcs]
        rfl
      · rw [hcs]

/-- Spans are in order, and none begins before the pieces do. -/
theorem pairwise_spansFrom (n : Nat) {ps : List Piece} (h : ∀ q ∈ ps, q.chars ≠ []) :
    (∀ s ∈ spansFrom n ps, n ≤ s.start ∧ s.start < s.stop) ∧
      (spansFrom n ps).Pairwise fun s s' => s.stop ≤ s'.start := by
  induction ps generalizing n with
  | nil => exact ⟨fun s hs => (List.not_mem_nil hs).elim, .nil⟩
  | cons q ps ih =>
    obtain ⟨hq, hps⟩ := List.forall_mem_cons.1 h
    rcases q with c | ⟨kind, cs⟩
    · obtain ⟨hbounds, hordered⟩ := ih (n + 1) hps
      refine ⟨fun s hs => ?_, hordered⟩
      obtain ⟨hstart, hstop⟩ := hbounds s hs
      exact ⟨by omega, hstop⟩
    · obtain ⟨hbounds, hordered⟩ := ih (n + cs.length) hps
      have hlength : 0 < cs.length := List.length_pos_iff.2 hq
      constructor
      · refine List.forall_mem_cons.2 ⟨⟨Nat.le_refl n, Nat.lt_add_of_pos_right hlength⟩, ?_⟩
        intro s hs
        obtain ⟨hstart, hstop⟩ := hbounds s hs
        exact ⟨by omega, hstop⟩
      · exact List.pairwise_cons.2 ⟨fun s hs => (hbounds s hs).1, hordered⟩

/-- **An index that no span has** is that of a piece which is no token. -/
theorem gap_of_not_has {n : Nat} {ps : List Piece} {before : List Char} {c : Char}
    {after : List Char} (htext : ps.flatMap Piece.chars = before ++ c :: after)
    (h : ∀ s ∈ spansFrom n ps, ¬ s.Has (n + before.length)) :
    ∃ qs rs, ps = qs ++ .gap c :: rs ∧ after = rs.flatMap Piece.chars := by
  induction ps generalizing n before with
  | nil => simp at htext
  | cons q ps ih =>
    rw [List.flatMap_cons] at htext
    rcases q with d | ⟨kind, cs⟩
    · rcases before with _ | ⟨d', before⟩
      · obtain ⟨rfl, rfl⟩ := List.cons.inj htext
        exact ⟨[], ps, rfl, rfl⟩
      · obtain ⟨qs, rs, rfl, rfl⟩ := ih (n := n + 1) (List.cons.inj htext).2 fun s hs => by
          have hnot := h s hs
          rwa [List.length_cons, Nat.add_comm before.length, ← Nat.add_assoc] at hnot
        exact ⟨.gap d :: qs, rs, rfl, rfl⟩
    · obtain ⟨hfirst, hothers⟩ := List.forall_mem_cons.1 h
      -- the index is behind the token, since the span of the token does not have it
      have hle : cs.length ≤ before.length := by
        by_contra hlt
        exact hfirst ⟨Nat.le_add_right n _, by dsimp only; omega⟩
      obtain ⟨before', rfl⟩ : cs <+: before :=
        List.prefix_of_prefix_length_le ⟨_, htext⟩ (List.prefix_append _ _) hle
      rw [List.append_assoc] at htext
      obtain ⟨qs, rs, rfl, rfl⟩ := ih (n := n + cs.length) (List.append_cancel_left htext)
        fun s hs => by
          have hnot := hothers s hs
          rwa [List.length_append, ← Nat.add_assoc] at hnot
      exact ⟨.lexeme kind cs :: qs, rs, rfl, rfl⟩

/-! ## The left of a word -/

/-- **Between a piece and what is behind it** no word goes on: one of the two characters there is
not a word character. -/
theorem Piece.Runs.parts {p : Piece} {rest : List Char} (h : p.Runs style rest) :
    (∃ c, p.chars.getLast? = some c ∧ isWordChar c = false) ∨
      ∀ d ∈ rest.head?, isWordChar d = false := by
  cases h with
  | @blank c _ hblank => exact .inl ⟨c, rfl, by simp [isWordChar, hblank]⟩
  | openQuote => exact .inl ⟨'"', rfl, rfl⟩
  | quoted => exact .inl ⟨'"', List.getLast?_concat, rfl⟩
  | comment line feed =>
    rcases style with _ | _
    · exact .inl ⟨'\n', List.getLast?_concat, rfl⟩
    · refine .inr fun d hd => ?_
      rw [feed rfl] at hd
      obtain rfl := Option.some.inj hd
      rfl
  | lastComment => exact .inr fun d hd => by cases hd
  | word _ stops => exact .inr stops

/-- No word has a word character in front of it. -/
theorem left_of_word {cs : List Char} {before : List Piece} {chars : List Char}
    {after : List Piece} (h : pieces style cs = before ++ .lexeme .word chars :: after) :
    ∀ c ∈ (before.flatMap Piece.chars).getLast?, isWordChar c = false := by
  rcases List.eq_nil_or_concat before with rfl | ⟨before, q, rfl⟩
  · intro c hc
    cases hc
  · have hword := runs_of_pieces_eq _ h
    rw [List.concat_eq_append, List.append_assoc, List.singleton_append] at h
    rcases (runs_of_pieces_eq before h).parts with ⟨d, hd, hother⟩ | hstops
    · intro c hc
      rw [List.concat_eq_append, List.flatMap_append, List.flatMap_singleton,
        List.getLast?_append, hd, Option.some_or] at hc
      obtain rfl := Option.some.inj hc
      exact hother
    · -- the word begins with a word character
      cases hword with
      | @word d ds _ hchars _ =>
        have hd := hchars d List.mem_cons_self
        rw [hstops d rfl] at hd
        cases hd

/-! ## Tokens -/

/-- A comment is known by how it begins. -/
theorem Token.LiesAt.isComment_iff {t : Token} {text : List Char} {s : Span}
    (h : t.LiesAt style text s) : t.isComment = true ↔ t.kind = .comment := by
  obtain ⟨before, after, -, -, hruns, -⟩ := h
  rw [Token.isComment, decide_eq_true_eq]
  generalize t.text.toList = chars at hruns
  generalize t.kind = kind at hruns ⊢
  cases hruns with
  | quoted => simp
  | comment => simp
  | lastComment => simp
  | @word c _ _ chars _ =>
    have hc := chars c List.mem_cons_self
    have hhash : c ≠ '#' := by
      rintro rfl
      exact absurd hc (by decide)
    simp [hhash]

/-- **A token lies where its piece stands.** -/
theorem FromPiece.liesAt {cs : List Char} {t : Token} {s : Span}
    (h : FromPiece .start 0 (pieces style cs) t s) : t.LiesAt style cs s := by
  obtain ⟨start, stop⟩ := s
  obtain ⟨before, after, hpieces, -, hstart, hstop⟩ := h
  dsimp only at hstart hstop
  subst hstart hstop
  refine ⟨before.flatMap Piece.chars, after.flatMap Piece.chars, ?_, by simp,
    runs_of_pieces_eq before hpieces, fun hword => ?_⟩
  · have hflatten := pieces_flatten style cs
    rw [hpieces, List.flatMap_append, List.flatMap_cons] at hflatten
    rw [← hflatten, List.append_assoc]
    rfl
  · rw [hword] at hpieces
    exact left_of_word hpieces

/-- **The tokens of a source cover it,** with every separator as a space. -/
theorem covers_tokenize (style : CommentStyle) (source : String) :
    Covers style (blankSeparators source.toList) (tokenize style source)
      (tokenSpans style source) := by
  have hlie : List.Forall₂ (fun t s => t.LiesAt style (blankSeparators source.toList) s)
      (tokenize style source) (tokenSpans style source) :=
    (forall₂_fromPiece .start 0 _).imp fun t s => FromPiece.liesAt
  obtain ⟨hbounds, hordered⟩ :=
    pairwise_spansFrom 0 (@chars_ne_nil_of_mem_pieces style (blankSeparators source.toList))
  refine ⟨hlie, fun s hs => (hbounds s hs).2, hordered, ?_, ?_⟩
  · intro before c after htext hnot
    rw [← pieces_flatten style (blankSeparators source.toList)] at htext
    obtain ⟨qs, rs, hpieces, rfl⟩ := gap_of_not_has (n := 0) htext (by rwa [Nat.zero_add])
    cases runs_of_pieces_eq qs hpieces with
    | blank hblank => exact .inl hblank
    | openQuote hlast => exact .inr ⟨rfl, hlast⟩
  · exact ((List.forall₂_and_left _ _).1 (hlie.imp fun t s h => ⟨h.isComment_iff, h⟩)).1

end ClipScript
