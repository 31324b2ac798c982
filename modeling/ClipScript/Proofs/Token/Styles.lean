/-
# The two styles of comments

The two styles cut a text in step. They take the same pieces until there is a comment with
a line feed behind it. There one style takes the line feed along, and the other leaves a
gap; behind it both go on at the same place (`inStep_pieces`).

So the tokens of the one style are known from those of the other (`tokenize_withLineFeed`):
they are as many, with the same kinds, lines and columns, and with the same texts, but for
the line feed of a comment that has one behind it. Whether it has one is said by the span
of the bare comment, which is where it lies in the source.
-/
import ClipScript.Proofs.Token.Appending
import ClipScript.Proofs.Token.Spans

set_option autoImplicit false

namespace ClipScript

/-! ## Pieces -/

/-- **Pieces that are in step:** those on the left have the line feeds of comments, and those on
the right leave them as gaps. -/
inductive InStep : List Piece → List Piece → Prop where
  | nil : InStep [] []
  /-- A piece of both. If it is a comment, the text ends with it. -/
  | same {p : Piece} {ps qs : List Piece} (last : ∀ cs, p = .lexeme .comment cs → qs = [])
      (rest : InStep ps qs) : InStep (p :: ps) (p :: qs)
  /-- A comment with a line feed behind it. -/
  | line {cs : List Char} {ps qs : List Piece} (rest : InStep ps qs) :
    InStep (.lexeme .comment (cs ++ ['\n']) :: ps) (.lexeme .comment cs :: .gap '\n' :: qs)

/-- Pieces that are no comments do not depend on the style. -/
theorem firstPiece_of_ne {c : Char} (hc : c ≠ '#') (cs : List Char) :
    firstPiece .withLineFeed c cs = firstPiece .bare c cs ∧
      ∀ ds, firstPiece .bare c cs ≠ .lexeme .comment ds := by
  unfold firstPiece
  rw [if_neg hc, if_neg hc]
  refine ⟨rfl, ?_⟩
  intro ds
  repeat' split
  all_goals exact fun h => by cases h

/-- **The two styles cut a text in step.** The induction is on the length of the text, since a line
feed that is left over is cut off as well before they meet again. -/
theorem inStep_pieces (cs : List Char) : InStep (pieces .withLineFeed cs) (pieces .bare cs) := by
  induction hlen : cs.length using Nat.strongRecOn generalizing cs with
  | ind n ih =>
    subst hlen
    rcases cs with _ | ⟨c, cs⟩
    · rw [pieces, pieces]
      exact .nil
    by_cases hc : c = '#'
    · subst hc
      by_cases hmem : '\n' ∈ cs
      · obtain ⟨body, rest, rfl, hbody⟩ := List.eq_append_cons_of_mem hmem
        have hwith : pieces .withLineFeed ('#' :: (body ++ '\n' :: rest)) =
            .lexeme .comment ('#' :: body ++ ['\n']) :: pieces .withLineFeed rest := by
          have hpiece := @firstPiece_comment .withLineFeed _ hbody rest (by simp)
          have hpieces := pieces_cons hpiece rfl
          rwa [List.cons_append, List.append_assoc] at hpieces
        have hbare : pieces .bare ('#' :: (body ++ '\n' :: rest)) =
            .lexeme .comment ('#' :: body) :: .gap '\n' :: pieces .bare rest := by
          have hpiece := @firstPiece_comment .bare _ hbody ('\n' :: rest) (by simp)
          rw [CommentStyle.ending, List.append_nil, List.append_nil] at hpiece
          have hgap : pieces .bare ('\n' :: rest) = .gap '\n' :: pieces .bare rest :=
            @pieces_cons _ _ [] _ _ rfl rfl
          rw [← hgap]
          exact pieces_cons hpiece rfl
        rw [hwith, hbare]
        apply InStep.line
        apply ih _ _ rest rfl
        simp only [List.length_cons, List.length_append]
        omega
      · -- without a line feed the comment is all that is left, in either style
        have hall : ∀ style, pieces style ('#' :: cs) = [.lexeme .comment ('#' :: cs)] := by
          intro style
          have hpiece : firstPiece style '#' (cs ++ []) = .lexeme .comment ('#' :: cs) := by
            rw [List.append_nil, firstPiece_openComment hmem]
          have hpieces := pieces_cons hpiece rfl
          rwa [List.append_nil, pieces] at hpieces
        rw [hall, hall]
        exact .same (fun _ _ => rfl) .nil
    · obtain ⟨hsame, hnot⟩ := firstPiece_of_ne hc cs
      rw [pieces, pieces, hsame]
      refine .same (fun ds hds => absurd hds (hnot ds)) ?_
      apply ih _ _ _ rfl
      rw [List.length_drop, List.length_cons]
      omega

/-! ## Tokens -/

/-- Whether a token is a comment with a line feed behind it, when it lies at a span of a text. -/
def Token.HasFeed (text : List Char) (t : Token) (s : Span) : Prop :=
  t.kind = .comment ∧ text[s.stop]? = some '\n'

instance (text : List Char) (t : Token) (s : Span) : Decidable (t.HasFeed text s) :=
  inferInstanceAs (Decidable (_ ∧ _))

/-- **A token with its line feed,** if it is a comment that has one behind it. -/
def Token.withFeed (text : List Char) (t : Token) (s : Span) : Token :=
  if t.HasFeed text s then { t with text := t.text ++ "\n" } else t

/-- **Tokens of pieces in step** that begin behind some characters: those on the left are those on
the right with their line feeds. -/
theorem placeTokens_inStep {ps qs : List Piece} (h : InStep ps qs) (p : Place)
    {text before : List Char} (htext : text = before ++ qs.flatMap Piece.chars) :
    placeTokens p ps =
      List.zipWith (Token.withFeed text) (placeTokens p qs) (spansFrom before.length qs) := by
  induction h generalizing p before with
  | nil => rfl
  | @same piece ps qs last rest ih =>
    have hrest : text = (before ++ piece.chars) ++ qs.flatMap Piece.chars := by
      rw [htext, List.flatMap_cons, List.append_assoc]
    rcases piece with c | ⟨kind, cs⟩
    · rw [placeTokens, placeTokens, spansFrom, ih _ hrest, List.length_append]
      rfl
    · rw [placeTokens, placeTokens, spansFrom, List.zipWith_cons_cons, ih _ hrest,
        List.length_append]
      congr 1
      -- a comment of both styles has nothing behind it
      rw [Token.withFeed, if_neg]
      rintro ⟨hkind, hfeed⟩
      obtain rfl : kind = .comment := hkind
      obtain rfl := last cs rfl
      rw [hrest, List.flatMap_nil, List.append_nil, List.getElem?_eq_none] at hfeed
      · cases hfeed
      · rw [List.length_append]
        exact Nat.le_refl _
  | @line cs ps qs rest ih =>
    have hrest : text = (before ++ (cs ++ ['\n'])) ++ qs.flatMap Piece.chars := by
      rw [htext, List.flatMap_cons, List.flatMap_cons]
      simp [Piece.chars]
    have hfeed : text[before.length + cs.length]? = some '\n' := by
      rw [hrest, ← List.length_append, ← List.append_assoc, List.append_assoc,
        List.getElem?_append_right (Nat.le_refl _), Nat.sub_self]
      rfl
    rw [placeTokens, placeTokens, placeTokens, spansFrom, spansFrom, List.zipWith_cons_cons,
      ih _ hrest, Place.advance_append, List.length_append, List.length_append, Token.withFeed,
      if_pos ⟨rfl, hfeed⟩, String.ofList_append]
    rfl

/-- **The styles differ in the line feeds of comments only:** the tokens that keep them are as many
as the bare ones, and each is the bare one, with the line feed if that is a comment with one behind
it in the source. -/
theorem tokenize_withLineFeed (source : String) :
    (tokenize .withLineFeed source).length = (tokenize .bare source).length ∧
      List.Forall₂ (fun t s => t.LiesAt .bare (blankSeparators source.toList) s)
        (tokenize .bare source) (tokenSpans .bare source) ∧
      tokenize .withLineFeed source =
        List.zipWith (Token.withFeed source.toList) (tokenize .bare source)
          (tokenSpans .bare source) := by
  have hlie := (covers_tokenize .bare source).lie
  have hsame : tokenize .withLineFeed source =
      List.zipWith (Token.withFeed source.toList) (tokenize .bare source)
        (tokenSpans .bare source) := by
    have hfeeds : Token.withFeed (blankSeparators source.toList) =
        Token.withFeed source.toList := by
      funext t s
      exact if_congr (and_congr_right fun _ => getElem?_blankSeparators _ _) rfl rfl
    rw [← hfeeds]
    exact @placeTokens_inStep _ _ (inStep_pieces (blankSeparators source.toList)) .start _ []
      (pieces_flatten .bare _).symm
  refine ⟨?_, hlie, hsame⟩
  rw [hsame, List.length_zipWith, ← hlie.length_eq, Nat.min_self]

example : tokenize .withLineFeed "# a\ncrop # \"b\"" =
    [⟨.comment, "# a\n", 1, 0⟩, ⟨.word, "crop", 2, 0⟩, ⟨.comment, "# \"b\"", 2, 5⟩] := by
  decide +kernel

end ClipScript
