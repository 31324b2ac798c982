/-
# From text to tokens

A semicolon separates directives exactly as a blank does, so every semicolon is
turned into a space first, inside quoted texts too. The text is then cut into
*pieces* from the left:

* `#` begins a comment, which goes on to the end of the line;
* `"` begins a quoted text, which goes on to the next `"`, over line ends too;
* a character that is neither of these and not blank begins a word, which goes on
  to the next character of another sort;
* a blank, and a `"` with no other after it, is a gap.

The pieces together are the whole text (`pieces_flatten`), so nothing is lost and
the place of each token is known from the pieces before it.

There are two styles of comments. In one the line feed that ends a comment
belongs to it, in the other it is a gap. They differ in nothing else.
-/
import ClipScript.Token
import ClipScript.Text.Blank

set_option autoImplicit false

namespace ClipScript

open Text

/-! ## Pieces -/

/-- Whether a comment has the line feed that ends it. -/
inductive CommentStyle where
  | withLineFeed
  | bare
deriving DecidableEq, Repr

/-- A piece of a text: a token without its place, or a character between tokens. -/
inductive Piece where
  | gap (c : Char)
  | lexeme (kind : TokenKind) (chars : List Char)
deriving DecidableEq, Repr

/-- The characters of a piece. -/
def Piece.chars : Piece → List Char
  | gap c => [c]
  | lexeme _ cs => cs

/-- A character of words. -/
def isWordChar (c : Char) : Bool := !isBlank c && c != '"' && c != '#'

/-- The line feed at the front of a text, if comments keep it. -/
def lineFeed (style : CommentStyle) : List Char → List Char
  | '\n' :: _ => match style with
    | .withLineFeed => ['\n']
    | .bare => []
  | _ => []

/-- **The first piece** of a text that starts with `c`. -/
def firstPiece (style : CommentStyle) (c : Char) (cs : List Char) : Piece :=
  if c = '#' then
    let body := cs.takeWhile (· != '\n')
    .lexeme .comment (c :: body ++ lineFeed style (cs.dropWhile (· != '\n')))
  else if c = '"' then
    if cs.contains '"' then .lexeme .quoted (c :: cs.takeWhile (· != '"') ++ ['"'])
    else .gap c
  else if isBlank c then .gap c
  else .lexeme .word (c :: cs.takeWhile isWordChar)

/-- The first piece has a character at least, so cutting ends. -/
theorem firstPiece_pos (style : CommentStyle) (c : Char) (cs : List Char) :
    0 < (firstPiece style c cs).chars.length := by
  unfold firstPiece
  repeat' split
  all_goals simp [Piece.chars]

/-- **The pieces** of a text, from left to right. -/
def pieces (style : CommentStyle) : List Char → List Piece
  | [] => []
  | c :: cs =>
    let p := firstPiece style c cs
    p :: pieces style (cs.drop (p.chars.length - 1))
termination_by cs => cs.length
decreasing_by simp only [List.length_drop, List.length_cons]; omega

/-- A line feed kept by a comment is at the front of what follows it. -/
theorem lineFeed_prefix (style : CommentStyle) (cs : List Char) : lineFeed style cs <+: cs := by
  unfold lineFeed
  split
  · cases style
    · exact ⟨_, rfl⟩
    · exact List.nil_prefix
  · exact List.nil_prefix

/-- The first piece is at the front of the text. -/
theorem firstPiece_prefix (style : CommentStyle) (c : Char) (cs : List Char) :
    (firstPiece style c cs).chars <+: c :: cs := by
  unfold firstPiece
  split
  · next h =>
    obtain ⟨r, hr⟩ := lineFeed_prefix style (cs.dropWhile (· != '\n'))
    refine ⟨r, ?_⟩
    simp only [Piece.chars, List.cons_append, List.append_assoc, hr,
      List.takeWhile_append_dropWhile]
  · split
    · split
      · next hc hmem =>
        have hsplit := List.takeWhile_append_dropWhile (p := (· != '"')) (l := cs)
        match hd : cs.dropWhile (· != '"') with
        | [] =>
          rw [hd, List.append_nil] at hsplit
          have hall : cs.all (· != '"') = true := hsplit ▸ List.all_takeWhile
          have := List.all_eq_true.1 hall '"' (by simpa using hmem)
          simp at this
        | d :: ds =>
          have hne := List.head_dropWhile_not (· != '"') (l := cs) (by simp [hd])
          simp only [hd, List.head_cons] at hne
          have hdq : d = '"' := by simpa using hne
          subst hdq
          refine ⟨ds, ?_⟩
          rw [hd] at hsplit
          simp [Piece.chars, hsplit]
      · exact ⟨cs, rfl⟩
    · split
      · exact ⟨cs, rfl⟩
      · exact ⟨cs.dropWhile isWordChar, by simp [Piece.chars]⟩

/-- What is left of a text behind its first piece. -/
theorem firstPiece_append_drop (style : CommentStyle) (c : Char) (cs : List Char) :
    (firstPiece style c cs).chars ++ cs.drop ((firstPiece style c cs).chars.length - 1) =
      c :: cs := by
  obtain ⟨r, hr⟩ := firstPiece_prefix style c cs
  have hdrop : (c :: cs).drop (firstPiece style c cs).chars.length = r := by
    rw [← hr, List.drop_left]
  obtain ⟨n, hn⟩ := Nat.exists_eq_add_one.2 (firstPiece_pos style c cs)
  rw [hn, List.drop_succ_cons] at hdrop
  rw [hn, Nat.add_sub_cancel, hdrop, hr]

/-- **Nothing is lost:** the pieces of a text are the text. -/
theorem pieces_flatten (style : CommentStyle) (cs : List Char) :
    (pieces style cs).flatMap Piece.chars = cs := by
  fun_induction pieces style cs with
  | case1 => rfl
  | case2 c cs p ih => rw [List.flatMap_cons, ih, firstPiece_append_drop]

/-! ## Places -/

/-- A place in a text: the line from one, the column from zero. -/
structure Place where
  line : Nat
  offset : Nat
deriving DecidableEq, Repr

/-- The place after a character. -/
def Place.step (p : Place) (c : Char) : Place :=
  if c = '\n' then ⟨p.line + 1, 0⟩ else ⟨p.line, p.offset + 1⟩

/-- The place after some characters. -/
def Place.advance (p : Place) (cs : List Char) : Place := cs.foldl Place.step p

/-- The start of a text. -/
def Place.start : Place := ⟨1, 0⟩

/-- Places can be advanced in two steps. -/
theorem Place.advance_append (p : Place) (cs ds : List Char) :
    p.advance (cs ++ ds) = (p.advance cs).advance ds := List.foldl_append

/-- The tokens among pieces that begin at a place. -/
def placeTokens (p : Place) : List Piece → List Token
  | [] => []
  | .gap c :: ps => placeTokens (p.step c) ps
  | .lexeme kind cs :: ps =>
    ⟨kind, String.ofList cs, p.line, p.offset⟩ :: placeTokens (p.advance cs) ps

/-! ## Tokens -/

/-- Every separator of directives as a space. -/
def blankSeparators (cs : List Char) : List Char := cs.map fun c => if c = ';' then ' ' else c

/-- **The tokens of a text.** -/
def tokenize (style : CommentStyle) (source : String) : List Token :=
  placeTokens .start (pieces style (blankSeparators source.toList))

end ClipScript
