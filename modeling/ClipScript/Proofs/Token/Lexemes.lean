/-
# Lexemes

The texts of tokens, apart from the source they come from: a *lexeme* is a run of word
characters, a text in quotes, or a comment with the line feed that its style keeps.
This file goes both ways between sources and lexemes. It starts with how far a piece of a
source runs (`Piece.Runs`): what it is made of, and what ends it.

* The tokens of a source are lexemes, without separators of directives in them. The
  one exception is a comment that keeps its line feed and has none: only the last
  token can be of that sort, since the comment ran to the end (`wellLexed_texts`).
* Lexemes that are laid out with blanks between them are the tokens of that text
  (`map_text_tokenize_laid`). A comment needs a line feed after it.

Where a token stands in the source plays no part in either.
-/
import ClipScript.Token.Lexer
import Mathlib.Data.List.TakeWhile

set_option autoImplicit false

namespace ClipScript

open Text

variable {style : CommentStyle}

/-! ## The texts of tokens -/

/-- The text of a piece that is a token. -/
def Piece.text? : Piece → Option String
  | gap _ => none
  | lexeme _ cs => some (String.ofList cs)

theorem Piece.text?_lexeme (kind : TokenKind) (cs : List Char) :
    (lexeme kind cs).text? = some (String.ofList cs) := rfl

theorem map_text_placeTokens (p : Place) (ps : List Piece) :
    (placeTokens p ps).map Token.text = ps.filterMap Piece.text? := by
  induction ps generalizing p with
  | nil => rfl
  | cons q ps ih =>
    rcases q with c | ⟨kind, cs⟩
    · rw [placeTokens, List.filterMap_cons_none rfl, ih]
    · rw [placeTokens, List.filterMap_cons_some (Piece.text?_lexeme kind cs), List.map_cons, ih]

def texts (style : CommentStyle) (cs : List Char) : List String :=
  (pieces style cs).filterMap Piece.text?

theorem map_text_tokenize (style : CommentStyle) (source : String) :
    (tokenize style source).map Token.text = texts style (blankSeparators source.toList) :=
  map_text_placeTokens ..

/-! ## Lexemes -/

/-- What ends a comment that something follows. -/
def CommentStyle.ending : CommentStyle → List Char
  | .withLineFeed => ['\n']
  | .bare => []

/-- **A lexeme.** -/
inductive Lexeme (style : CommentStyle) : List Char → Prop where
  | word {c : Char} {cs : List Char} (chars : ∀ d ∈ c :: cs, isWordChar d = true) :
    Lexeme style (c :: cs)
  | quoted {body : List Char} (closed : '"' ∉ body) : Lexeme style ('"' :: body ++ ['"'])
  | comment {body : List Char} (line : '\n' ∉ body) : Lexeme style ('#' :: body ++ style.ending)

/-- A comment up to the end of a source. -/
def IsOpenComment (cs : List Char) : Prop := ∃ body, cs = '#' :: body ∧ '\n' ∉ body

/-- **Lexemes in a row:** only the last one can be an open comment. -/
structure WellLexed (style : CommentStyle) (ws : List String) : Prop where
  each : ∀ w ∈ ws, Lexeme style w.toList ∨ IsOpenComment w.toList
  before : ws.Pairwise fun w _ => Lexeme style w.toList

theorem WellLexed.sublist {ws ws' : List String} (h : WellLexed style ws) (hsub : ws'.Sublist ws) :
    WellLexed style ws' :=
  ⟨fun w hw => h.each w (hsub.subset hw), h.before.sublist hsub⟩

/-! ## How far pieces run -/

/-- **How far a piece runs:** what it is made of, and what it has behind it. -/
inductive Piece.Runs (style : CommentStyle) : Piece → List Char → Prop where
  | blank {c : Char} {rest : List Char} (blank : isBlank c = true) : Runs style (.gap c) rest
  /-- A quote that no other follows. -/
  | openQuote {rest : List Char} (last : '"' ∉ rest) : Runs style (.gap '"') rest
  /-- From a quote to the next. -/
  | quoted {body rest : List Char} (inner : '"' ∉ body) :
    Runs style (.lexeme .quoted ('"' :: body ++ ['"'])) rest
  /-- Up to a line feed, which belongs to the comment or is behind it. -/
  | comment {body rest : List Char} (line : '\n' ∉ body)
    (feed : style = .bare → rest.head? = some '\n') :
    Runs style (.lexeme .comment ('#' :: body ++ style.ending)) rest
  /-- Up to the end of the text. -/
  | lastComment {body : List Char} (line : '\n' ∉ body) :
    Runs style (.lexeme .comment ('#' :: body)) []
  /-- As long as there are word characters. -/
  | word {c : Char} {cs rest : List Char} (chars : ∀ d ∈ c :: cs, isWordChar d = true)
    (stops : ∀ d ∈ rest.head?, isWordChar d = false) : Runs style (.lexeme .word (c :: cs)) rest

/-- Where a test stops, it fails. -/
theorem head?_dropWhile_eq_false (p : Char → Bool) (cs : List Char) :
    ∀ d ∈ (cs.dropWhile p).head?, p d = false := by
  intro d hd
  rw [← List.find?_not_eq_head?_dropWhile] at hd
  simpa using List.find?_some hd

/-- **The first piece** of a text runs up to what it leaves. -/
theorem runs_firstPiece {c : Char} {cs rest : List Char}
    (h : (firstPiece style c cs).chars ++ rest = c :: cs) :
    (firstPiece style c cs).Runs style rest := by
  unfold firstPiece at h ⊢
  by_cases hhash : c = '#'
  · subst hhash
    rw [if_pos rfl] at h ⊢
    dsimp only at h ⊢
    have hbody : '\n' ∉ cs.takeWhile (· != '\n') := fun hmem => by
      simpa using List.mem_takeWhile_imp hmem
    have hsplit := List.takeWhile_append_dropWhile (p := (· != '\n')) (l := cs)
    have hfeed := head?_dropWhile_eq_false (· != '\n') cs
    generalize cs.takeWhile (· != '\n') = body at *
    generalize cs.dropWhile (· != '\n') = ds at *
    subst hsplit
    -- a line feed ends the comment, or there is none and nothing is left
    rcases ds with _ | ⟨d, ds⟩
    · obtain rfl : rest = [] := by simpa [Piece.chars, lineFeed] using h
      rw [show lineFeed style [] = [] from rfl, List.append_nil]
      exact .lastComment hbody
    · obtain rfl : d = '\n' := by simpa using hfeed d rfl
      rw [show lineFeed style ('\n' :: ds) = style.ending by cases style <;> rfl] at h ⊢
      refine .comment hbody ?_
      rintro rfl
      obtain rfl : rest = '\n' :: ds := by simpa [Piece.chars, CommentStyle.ending] using h
      rfl
  · rw [if_neg hhash] at h ⊢
    by_cases hquote : c = '"'
    · subst hquote
      rw [if_pos rfl] at h ⊢
      by_cases hclosed : cs.contains '"' = true
      · rw [if_pos hclosed]
        exact .quoted fun hmem => by simpa using List.mem_takeWhile_imp hmem
      · rw [if_neg hclosed] at h ⊢
        obtain rfl : rest = cs := by simpa [Piece.chars] using h
        exact .openQuote (by simpa using hclosed)
    · rw [if_neg hquote] at h ⊢
      by_cases hblank : isBlank c = true
      · rw [if_pos hblank]
        exact .blank hblank
      · -- what is neither a comment, nor quoted, nor blank is a word
        rw [if_neg hblank] at h ⊢
        have hsplit := List.takeWhile_append_dropWhile (p := isWordChar) (l := cs)
        obtain rfl : rest = cs.dropWhile isWordChar := by
          rw [Piece.chars, List.cons_append, List.cons.injEq] at h
          exact List.append_cancel_left (h.2.trans hsplit.symm)
        refine .word (List.forall_mem_cons.2 ⟨?_, fun d hd => List.mem_takeWhile_imp hd⟩)
          (head?_dropWhile_eq_false isWordChar cs)
        simp [isWordChar, hhash, hquote, hblank]

/-- **Every piece of a text** runs up to the pieces behind it. -/
theorem runs_of_pieces_eq {cs : List Char} (before : List Piece) {p : Piece} {after : List Piece}
    (h : pieces style cs = before ++ p :: after) : p.Runs style (after.flatMap Piece.chars) := by
  fun_induction pieces style cs generalizing before with
  | case1 => simp at h
  | case2 c cs q ih =>
    cases before with
    | nil =>
      obtain ⟨rfl, rfl⟩ := List.cons.inj h
      rw [pieces_flatten]
      exact runs_firstPiece (firstPiece_append_drop style c cs)
    | cons _ before => exact ih before (List.cons.inj h).2

/-! ## From sources to lexemes -/

/-- A token is a lexeme, or an open comment with nothing behind it. -/
theorem Piece.Runs.lexeme {kind : TokenKind} {chars rest : List Char}
    (h : Piece.Runs style (.lexeme kind chars) rest) :
    Lexeme style chars ∨ (IsOpenComment chars ∧ rest = []) := by
  cases h with
  | quoted inner => exact .inl (.quoted inner)
  | comment line feed => exact .inl (.comment line)
  | lastComment line => exact .inr ⟨⟨_, rfl, line⟩, rfl⟩
  | word chars stops => exact .inl (.word chars)

/-- **The tokens in some characters are lexemes.** -/
theorem wellLexed_texts (style : CommentStyle) (cs : List Char) :
    WellLexed style (texts style cs) := by
  unfold texts
  fun_induction pieces style cs with
  | case1 => exact ⟨by simp, .nil⟩
  | case2 c cs p ih =>
    rcases hp : p with d | ⟨kind, chars⟩
    · rw [hp] at ih
      rw [List.filterMap_cons_none rfl]
      exact ih
    · rw [hp] at ih
      rw [List.filterMap_cons_some (Piece.text?_lexeme kind chars)]
      have hruns := runs_firstPiece (firstPiece_append_drop style c cs)
      rw [show firstPiece style c cs = .lexeme kind chars from hp] at hruns
      have hlex := hruns.lexeme
      constructor
      · intro w hw
        rcases List.mem_cons.1 hw with rfl | hw
        · rw [String.toList_ofList]
          exact hlex.imp_right And.left
        · exact ih.each w hw
      · refine List.pairwise_cons.2 ⟨fun w hw => ?_, ih.before⟩
        rw [String.toList_ofList]
        rcases hlex with hlex | ⟨-, hend⟩
        · exact hlex
        · -- nothing is left for another token
          rw [hend, pieces] at hw
          cases hw

/-- A token has no separator of directives in it. -/
theorem not_mem_of_mem_texts {source : List Char} {w : String}
    (hw : w ∈ texts style (blankSeparators source)) : ';' ∉ w.toList := by
  obtain ⟨p, hp, hpw⟩ := List.mem_filterMap.1 hw
  intro hmem
  -- the characters of a token are among those of the source
  have hchar : ';' ∈ (pieces style (blankSeparators source)).flatMap Piece.chars := by
    rcases p with c | ⟨kind, cs⟩
    · cases hpw
    · obtain rfl : String.ofList cs = w := Option.some.inj hpw
      rw [String.toList_ofList] at hmem
      exact List.mem_flatMap.2 ⟨_, hp, hmem⟩
  rw [pieces_flatten, blankSeparators, List.mem_map] at hchar
  obtain ⟨c, -, hc⟩ := hchar
  split at hc
  · cases hc
  · contradiction

/-! ## From lexemes to sources -/

theorem forall_bne_of_not_mem {c : Char} {cs : List Char} (h : c ∉ cs) :
    ∀ d ∈ cs, (d != c) = true := by
  intro d hd
  rw [bne_iff_ne]
  rintro rfl
  exact h hd

theorem texts_blank {c : Char} (h : isBlank c = true) (cs : List Char) :
    texts style (c :: cs) = texts style cs := by
  have hfirst : firstPiece style c cs = .gap c := by
    have hhash : c ≠ '#' := by
      rintro rfl
      exact absurd h (by decide)
    have hquote : c ≠ '"' := by
      rintro rfl
      exact absurd h (by decide)
    rw [firstPiece, if_neg hhash, if_neg hquote, if_pos h]
  rw [texts, pieces, hfirst]
  rfl

/-- What is in front is cut off first. -/
theorem pieces_cons {c : Char} {cs rest : List Char} {p : Piece}
    (h : firstPiece style c (cs ++ rest) = p) (hp : p.chars = c :: cs) :
    pieces style (c :: cs ++ rest) = p :: pieces style rest := by
  rw [List.cons_append, pieces, h, hp]
  simp only [List.length_cons, Nat.add_sub_cancel, List.drop_left]

theorem texts_append (kind : TokenKind) {c : Char} (cs : List Char) {rest : List Char}
    (h : firstPiece style c (cs ++ rest) = .lexeme kind (c :: cs)) :
    texts style (c :: cs ++ rest) = String.ofList (c :: cs) :: texts style rest := by
  rw [texts, pieces_cons h rfl]
  rfl

/-- A word goes on to a character that is none of its. -/
theorem texts_word {c : Char} {cs : List Char} (h : ∀ d ∈ c :: cs, isWordChar d = true)
    {rest : List Char} (hrest : ∀ d ∈ rest.head?, isWordChar d = false) :
    texts style (c :: cs ++ rest) = String.ofList (c :: cs) :: texts style rest := by
  have hc := h c List.mem_cons_self
  have hcs : ∀ d ∈ cs, isWordChar d = true := fun d hd => h d (List.mem_cons_of_mem _ hd)
  -- the word stops at the next character
  have htake : rest.takeWhile isWordChar = [] := by
    rcases rest with _ | ⟨d, rest⟩
    · rfl
    · exact List.takeWhile_cons_of_neg (by simp [hrest d rfl])
  simp only [isWordChar, Bool.and_eq_true, Bool.not_eq_true', bne_iff_ne] at hc
  obtain ⟨⟨hblank, hquote⟩, hhash⟩ := hc
  refine texts_append .word cs ?_
  rw [firstPiece, if_neg hhash, if_neg hquote, if_neg (by simp [hblank]),
    List.takeWhile_append_of_pos hcs, htake, List.append_nil]

/-- A quoted text goes on to its quote. -/
theorem texts_quoted {body : List Char} (h : '"' ∉ body) (rest : List Char) :
    texts style ('"' :: body ++ ['"'] ++ rest) =
      String.ofList ('"' :: body ++ ['"']) :: texts style rest := by
  have hbody := forall_bne_of_not_mem h
  refine texts_append .quoted (body ++ ['"']) ?_
  rw [firstPiece, if_neg (by decide), if_pos rfl, if_pos (by simp), List.append_assoc,
    List.takeWhile_append_of_pos hbody]
  simp

/-- A comment goes on to the end of the line. -/
theorem firstPiece_comment {body : List Char} (h : '\n' ∉ body) {rest : List Char}
    (hrest : style = .bare → ∀ d ∈ rest.head?, d = '\n') :
    firstPiece style '#' (body ++ style.ending ++ rest) =
      .lexeme .comment ('#' :: body ++ style.ending) := by
  have hbody := forall_bne_of_not_mem h
  rw [firstPiece, if_pos rfl, List.append_assoc, List.takeWhile_append_of_pos hbody,
    List.dropWhile_append_of_pos hbody]
  -- a bare comment leaves the line feed, and one of the other style takes it along
  rcases style with _ | _
  · simp [CommentStyle.ending, lineFeed]
  · rcases rest with _ | ⟨d, rest⟩
    · simp [CommentStyle.ending, lineFeed]
    · obtain rfl := hrest rfl d rfl
      simp [CommentStyle.ending, lineFeed]

/-- Without a line feed it goes on to the end of the text. -/
theorem firstPiece_openComment {body : List Char} (h : '\n' ∉ body) :
    firstPiece style '#' body = .lexeme .comment ('#' :: body) := by
  have hbody := forall_bne_of_not_mem h
  rw [firstPiece, if_pos rfl, List.takeWhile_eq_self_iff.2 hbody,
    List.dropWhile_eq_nil_iff.2 hbody]
  simp [lineFeed]

theorem texts_comment {body : List Char} (h : '\n' ∉ body) {rest : List Char}
    (hrest : style = .bare → ∀ d ∈ rest.head?, d = '\n') :
    texts style ('#' :: body ++ style.ending ++ rest) =
      String.ofList ('#' :: body ++ style.ending) :: texts style rest :=
  texts_append .comment (body ++ style.ending) (firstPiece_comment h hrest)

theorem texts_openComment {body : List Char} (h : '\n' ∉ body) :
    texts style ('#' :: body) = [String.ofList ('#' :: body)] := by
  have hfirst : firstPiece style '#' (body ++ []) = .lexeme .comment ('#' :: body) := by
    rw [List.append_nil, firstPiece_openComment h]
  have hall := texts_append .comment body hfirst
  rwa [List.append_nil, show texts style [] = [] by rw [texts, pieces]; rfl] at hall

/-! ## Layouts -/

/-- **Laid out:** lexemes with a blank after each but the last, and a line feed after comments. -/
inductive Laid (style : CommentStyle) : List String → List Char → Prop where
  | last {w : String} (lexeme : Lexeme style w.toList ∨ IsOpenComment w.toList) :
    Laid style [w] w.toList
  | cons {w : String} {ws : List String} {c : Char} {cs : List Char}
      (lexeme : Lexeme style w.toList) (blank : isBlank c = true)
      (line : w.toList.head? = some '#' → c = '\n') (laid : Laid style ws cs) :
    Laid style (w :: ws) (w.toList ++ c :: cs)

/-- A lexeme with a blank after it, or nothing, is the first token. -/
theorem texts_lexeme {w : String} {rest : List Char} (h : Lexeme style w.toList)
    (hblank : ∀ d ∈ rest.head?, isBlank d = true)
    (hline : w.toList.head? = some '#' → ∀ d ∈ rest.head?, d = '\n') :
    texts style (w.toList ++ rest) = w :: texts style rest := by
  have hw : String.ofList w.toList = w := String.ofList_toList
  generalize w.toList = chars at *
  subst hw
  -- a blank ends a word, a quoted text ends itself, and only a line feed ends a comment
  rcases h with hchars | hclosed | hbody
  · exact texts_word hchars fun d hd => by simp [isWordChar, hblank d hd]
  · exact texts_quoted hclosed rest
  · exact texts_comment hbody fun _ => hline rfl

/-- **Lexemes that are laid out** are the tokens of their text. -/
theorem texts_laid {ws : List String} {cs : List Char} (h : Laid style ws cs) :
    texts style cs = ws := by
  induction h with
  | @last w hlex =>
    rcases hlex with hlex | ⟨body, hbody, hline⟩
    · have hall := @texts_lexeme style w [] hlex (by simp) (by simp)
      rwa [List.append_nil, show texts style [] = [] by rw [texts, pieces]; rfl] at hall
    · rw [hbody, texts_openComment hline, ← hbody, String.ofList_toList]
  | cons hlex hblank hline _ ih =>
    rw [texts_lexeme hlex (by simpa using hblank) (by simpa using hline), texts_blank hblank, ih]

/-- **One layout after another,** with a line feed between them. -/
theorem Laid.append {ws ws' : List String} {cs cs' : List Char} (h : Laid style ws cs)
    (hlex : ∀ w ∈ ws, Lexeme style w.toList) (h' : Laid style ws' cs') :
    Laid style (ws ++ ws') (cs ++ '\n' :: cs') := by
  induction h with
  | last _ => exact .cons (hlex _ List.mem_cons_self) (by decide) (fun _ => rfl) h'
  | cons hw hblank hline _ ih =>
    rw [List.cons_append, List.append_assoc]
    exact .cons hw hblank hline (ih fun w hmem => hlex w (List.mem_cons_of_mem _ hmem))

/-- **Lexemes with one space between two** are laid out, if only the last can be a comment. -/
theorem laid_intercalate {ws : List String} (hne : ws ≠ []) (hlex : WellLexed style ws)
    (hcomment : ws.Pairwise fun w _ => w.toList.head? ≠ some '#') :
    Laid style ws (String.intercalate " " ws).toList := by
  induction ws with
  | nil => exact absurd rfl hne
  | cons w ws ih =>
    -- the last lexeme may be an open comment, and the others are whole
    by_cases hws : ws = []
    · subst hws
      rw [String.intercalate_singleton]
      exact .last (hlex.each w List.mem_cons_self)
    · obtain ⟨v, hv⟩ := List.exists_mem_of_ne_nil ws hws
      obtain ⟨hw, hrest⟩ := List.pairwise_cons.1 hlex.before
      obtain ⟨hnot, hnots⟩ := List.pairwise_cons.1 hcomment
      rw [String.intercalate_cons_of_ne_nil hws, String.toList_append, String.toList_append,
        List.append_assoc]
      exact .cons (hw v hv) (by decide) (fun h => absurd h (hnot v hv))
        (ih hws ⟨fun u hu => hlex.each u (List.mem_cons_of_mem _ hu), hrest⟩ hnots)

/-- No separator of directives comes in with a layout. -/
theorem Laid.not_mem {ws : List String} {cs : List Char} (h : Laid style ws cs)
    (hws : ∀ w ∈ ws, ';' ∉ w.toList) : ';' ∉ cs := by
  induction h with
  | last _ => exact hws _ List.mem_cons_self
  | @cons w ws c cs _ hblank _ _ ih =>
    have hc : ';' ≠ c := by
      rintro rfl
      exact absurd hblank (by decide)
    rw [List.mem_append, List.mem_cons, not_or, not_or]
    exact ⟨hws w List.mem_cons_self, hc, ih fun v hv => hws v (List.mem_cons_of_mem _ hv)⟩

theorem blankSeparators_eq_self {cs : List Char} (h : ';' ∉ cs) : blankSeparators cs = cs := by
  have hid : ∀ c ∈ cs, (if c = ';' then ' ' else c) = id c := by
    intro c hc
    rw [if_neg, id]
    rintro rfl
    exact h hc
  rw [blankSeparators, List.map_congr_left hid, List.map_id]

/-- **The tokens of a layout** have its lexemes for texts. -/
theorem map_text_tokenize_laid {ws : List String} {source : String}
    (h : Laid style ws source.toList) (hws : ∀ w ∈ ws, ';' ∉ w.toList) :
    (tokenize style source).map Token.text = ws := by
  rw [map_text_tokenize, blankSeparators_eq_self (h.not_mem hws), texts_laid h]

end ClipScript
