/-
# Tokens of one text after another

A text that ends with a line feed keeps its tokens when another one is put behind it, and
the tokens of the other one stand as many lines further down as the first has line feeds,
in the same columns. One thing could spoil this: a quote that nothing closes. It is a gap
by itself, and would become a token with the first quote of the other text. So the
assumption is that there is none (`QuotesClosed`).

The induction is on the pieces of the first text. What is left of it after a piece still
ends with a line feed, which is why no word and no comment runs over into what follows
(`firstPiece_append`).
-/
import ClipScript.Proofs.Token.Lexemes

set_option autoImplicit false

namespace ClipScript

variable {style : CommentStyle}

/-! ## Pieces -/

/-- A text that ends with a line feed, or is empty. -/
def EndsLine (cs : List Char) : Prop := ∀ d ∈ cs.getLast?, d = '\n'

/-- **No quote is left open:** none of the pieces is a quote by itself. -/
def QuotesClosed (style : CommentStyle) (source : String) : Prop :=
  Piece.gap '"' ∉ pieces style (blankSeparators source.toList)

instance (source : String) : Decidable (QuotesClosed style source) :=
  inferInstanceAs (Decidable (_ ∉ _))

theorem EndsLine.drop {cs : List Char} (h : EndsLine cs) (n : Nat) : EndsLine (cs.drop n) := by
  intro d hd
  rw [List.getLast?_drop] at hd
  split at hd
  · cases hd
  · exact h d hd

/-- A line feed is among the characters after one that is none. -/
theorem EndsLine.mem_tail {c : Char} {cs : List Char} (h : EndsLine (c :: cs)) (hc : c ≠ '\n') :
    '\n' ∈ cs := by
  cases cs with
  | nil => exact absurd (h c rfl) hc
  | cons d ds =>
    have hlast := List.getLast?_eq_some_getLast (List.cons_ne_nil d ds)
    obtain hfeed := h _ (by rw [List.getLast?_cons_cons, hlast]; rfl)
    rw [← hfeed]
    exact List.getLast_mem _

/-- Where a test ends within a list, nothing behind the list matters to it. -/
theorem span_append {p : Char → Bool} {cs : List Char} {d : Char} (hd : d ∈ cs)
    (hp : p d = false) (rest : List Char) :
    (cs ++ rest).takeWhile p = cs.takeWhile p ∧
      (cs ++ rest).dropWhile p = cs.dropWhile p ++ rest := by
  have hends : ¬ ∀ x ∈ cs, p x = true := by
    intro hall
    rw [hall d hd] at hp
    cases hp
  constructor
  · have hlength : ¬ (cs.takeWhile p).length = cs.length := fun h =>
      hends (List.takeWhile_eq_self_iff.1 ((List.takeWhile_prefix p).eq_of_length h))
    rw [List.takeWhile_append, if_neg hlength]
  · have hnil : ¬ (cs.dropWhile p).isEmpty = true := fun h =>
      hends (List.dropWhile_eq_nil_iff.1 (List.isEmpty_iff.1 h))
    rw [List.dropWhile_append, if_neg hnil]

/-- **The first piece** of a text that ends with a line feed does not depend on what follows the
text, unless it is a quote that is left open. -/
theorem firstPiece_append {c : Char} {cs : List Char} (h : EndsLine (c :: cs))
    (hquote : firstPiece style c cs ≠ .gap '"') (rest : List Char) :
    firstPiece style c (cs ++ rest) = firstPiece style c cs := by
  unfold firstPiece at hquote ⊢
  by_cases hhash : c = '#'
  · -- the line feed that ends the comment is in the text
    subst hhash
    have hmem := h.mem_tail (by decide)
    obtain ⟨htake, hdrop⟩ := span_append (p := (· != '\n')) hmem (by decide) rest
    obtain ⟨d, ds, hds⟩ : ∃ d ds, cs.dropWhile (· != '\n') = d :: ds := by
      apply List.exists_cons_of_ne_nil
      intro hnil
      have hall := List.dropWhile_eq_nil_iff.1 hnil '\n' hmem
      simp at hall
    have hfeed : lineFeed style (d :: ds ++ rest) = lineFeed style (d :: ds) := by
      have hhead := List.head_dropWhile_not (· != '\n') (l := cs) (by simp [hds])
      simp only [hds, List.head_cons] at hhead
      obtain rfl : d = '\n' := by simpa using hhead
      rfl
    rw [if_pos rfl, if_pos rfl, htake, hdrop, hds, hfeed]
  · rw [if_neg hhash] at hquote ⊢
    rw [if_neg hhash]
    by_cases hq : c = '"'
    · -- the quote is closed by one in the text
      subst hq
      rw [if_pos rfl] at hquote ⊢
      rw [if_pos rfl]
      by_cases hclosed : cs.contains '"' = true
      · have hmem : '"' ∈ cs := by simpa using hclosed
        obtain ⟨htake, -⟩ := span_append (p := (· != '"')) hmem (by decide) rest
        rw [if_pos hclosed, if_pos (by simp [hmem]), htake]
      · rw [if_neg hclosed] at hquote
        exact absurd rfl hquote
    · rw [if_neg hq, if_neg hq]
      by_cases hblank : Text.isBlank c = true
      · rw [if_pos hblank, if_pos hblank]
      · -- a word goes on to the line feed at most
        have hmem := h.mem_tail (by rintro rfl; exact hblank (by decide))
        obtain ⟨htake, -⟩ := span_append (p := isWordChar) hmem (by decide) rest
        rw [if_neg hblank, if_neg hblank, htake]

/-- **The pieces of one text after another** are those of the one and those of the other. -/
theorem pieces_append {cs : List Char} (h : EndsLine cs) (hquote : Piece.gap '"' ∉ pieces style cs)
    (rest : List Char) : pieces style (cs ++ rest) = pieces style cs ++ pieces style rest := by
  fun_induction pieces style cs with
  | case1 => rfl
  | case2 c cs p ih =>
    rw [List.mem_cons, not_or] at hquote
    obtain ⟨hfirst, hothers⟩ := hquote
    have hsame : firstPiece style c (cs ++ rest) = p := firstPiece_append h (Ne.symm hfirst) rest
    -- the first piece ends within the text, so what follows it is a rest of the text
    have hwithin : p.chars.length - 1 ≤ cs.length := by
      have hle : p.chars.length ≤ (c :: cs).length := List.IsPrefix.length_le <|
        firstPiece_prefix style c cs
      rw [List.length_cons] at hle
      omega
    have hrest : EndsLine (cs.drop (p.chars.length - 1)) := by
      have hdrop := h.drop (p.chars.length - 1 + 1)
      rwa [List.drop_succ_cons] at hdrop
    rw [List.cons_append, pieces, hsame, List.drop_append_of_le_length hwithin, ih hrest hothers]
    rfl

/-! ## Places -/

/-- A place some lines further down. -/
def Place.down (n : Nat) (p : Place) : Place := ⟨p.line + n, p.offset⟩

/-- A token some lines further down. -/
def Token.down (n : Nat) (t : Token) : Token := { t with line := t.line + n }

@[simp] theorem Token.down_text (n : Nat) (t : Token) : (t.down n).text = t.text := rfl

@[simp] theorem Token.down_isComment (n : Nat) (t : Token) : (t.down n).isComment = t.isComment :=
  rfl

theorem Place.step_down (n : Nat) (p : Place) (c : Char) :
    (p.down n).step c = (p.step c).down n := by
  unfold Place.step Place.down
  split
  · rw [Nat.add_right_comm]
  · rfl

theorem Place.advance_down (n : Nat) (p : Place) (cs : List Char) :
    (p.down n).advance cs = (p.advance cs).down n := by
  induction cs generalizing p with
  | nil => rfl
  | cons c cs ih =>
    have hstep := ih (p.step c)
    rwa [← step_down] at hstep

/-- **Behind a text** is as many lines down as it has line feeds. -/
theorem Place.advance_line (p : Place) (cs : List Char) :
    (p.advance cs).line = p.line + cs.count '\n' := by
  induction cs generalizing p with
  | nil => rfl
  | cons c cs ih =>
    have hline := ih (p.step c)
    rw [show (p.step c).advance cs = p.advance (c :: cs) from rfl] at hline
    rw [hline]
    unfold Place.step
    by_cases hc : c = '\n'
    · rw [if_pos hc, hc, List.count_cons_self]
      simp only
      omega
    · rw [if_neg hc, List.count_cons_of_ne hc]

/-- A line starts behind a line feed. -/
theorem Place.advance_offset (p : Place) {cs : List Char} (h : cs.getLast? = some '\n') :
    (p.advance cs).offset = 0 := by
  obtain ⟨ds, rfl⟩ := List.getLast?_eq_some_iff.1 h
  rw [Place.advance_append]
  rfl

/-- Tokens that are placed after others begin behind these. -/
theorem placeTokens_append (p : Place) (ps qs : List Piece) :
    placeTokens p (ps ++ qs) =
      placeTokens p ps ++ placeTokens (p.advance (ps.flatMap Piece.chars)) qs := by
  induction ps generalizing p with
  | nil => rfl
  | cons piece ps ih =>
    rw [List.flatMap_cons, Place.advance_append]
    cases piece with
    | gap c =>
      rw [List.cons_append, placeTokens, placeTokens, ih]
      rfl
    | lexeme kind cs =>
      rw [List.cons_append, placeTokens, placeTokens, ih]
      rfl

/-- Tokens that are placed further down are the same further down. -/
theorem placeTokens_down (n : Nat) (p : Place) (ps : List Piece) :
    placeTokens (p.down n) ps = (placeTokens p ps).map (Token.down n) := by
  induction ps generalizing p with
  | nil => rfl
  | cons piece ps ih =>
    cases piece with
    | gap c => rw [placeTokens, placeTokens, Place.step_down, ih]
    | lexeme kind cs =>
      rw [placeTokens, placeTokens, Place.advance_down, ih]
      rfl

/-! ## Tokens -/

theorem blankSeparators_append (cs ds : List Char) :
    blankSeparators (cs ++ ds) = blankSeparators cs ++ blankSeparators ds := List.map_append

/-- A separator that becomes a space is no line feed. -/
theorem count_blankSeparators (cs : List Char) :
    (blankSeparators cs).count '\n' = cs.count '\n' := by
  induction cs with
  | nil => rfl
  | cons c cs ih =>
    rw [blankSeparators, List.map_cons, List.count_cons, List.count_cons]
    rw [blankSeparators] at ih
    rw [ih]
    by_cases hc : c = ';'
    · subst hc
      rfl
    · rw [if_neg hc]

/-- Nor does a line feed become anything else. -/
theorem getElem?_blankSeparators (cs : List Char) (i : Nat) :
    (blankSeparators cs)[i]? = some '\n' ↔ cs[i]? = some '\n' := by
  rw [blankSeparators, List.getElem?_map, Option.map_eq_some_iff]
  constructor
  · rintro ⟨c, hc, heq⟩
    by_cases hsep : c = ';'
    · rw [if_pos hsep] at heq
      exact absurd heq (by decide)
    · rw [if_neg hsep] at heq
      rw [hc, heq]
  · intro h
    exact ⟨'\n', h, by decide⟩

theorem getLast?_blankSeparators {cs : List Char} (h : cs.getLast? = some '\n') :
    (blankSeparators cs).getLast? = some '\n' := by
  rw [blankSeparators, List.getLast?_map, h]
  rfl

/-- **The tokens of one text after another:** those of the first, and those of the other as many
lines further down as the first has line feeds. -/
theorem tokenize_append {a : String} (hline : a.toList.getLast? = some '\n')
    (hquotes : QuotesClosed style a) (b : String) :
    tokenize style (a ++ b) =
      tokenize style a ++ (tokenize style b).map (Token.down (a.toList.count '\n')) := by
  have hlast := getLast?_blankSeparators hline
  have hends : EndsLine (blankSeparators a.toList) := by
    intro d hd
    rw [hlast] at hd
    exact (Option.some.inj hd).symm
  -- the other text begins at the start of a line
  have hplace : Place.start.advance (blankSeparators a.toList) =
      Place.start.down (a.toList.count '\n') := by
    have hl := Place.start.advance_line (blankSeparators a.toList)
    have ho := Place.start.advance_offset hlast
    rw [count_blankSeparators] at hl
    rw [Place.down, ← hl, show Place.start.offset = 0 from rfl, ← ho]
  unfold tokenize
  rw [String.toList_append, blankSeparators_append, pieces_append hends hquotes,
    placeTokens_append, pieces_flatten, hplace, placeTokens_down]

end ClipScript
