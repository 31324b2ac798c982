/-
# Where tokens stand

A token carries the line and the column where it starts. This file says what these
numbers mean for the text the tokens come from, and in which order they are.

* `PointsAt` reads a place in a text: its line is there and reaches beyond the column,
  and from the column on, over line ends too, the text begins with the given characters.
  Every token points at its own text (`pointsAt_of_mem_tokenize`), since what stands
  before it has as many line feeds as there are lines above it, and as many characters
  behind the last of them as the column says (`exists_line`).
* Along a text places only go forward (`Place.Before`), and every token has at least one
  character, so the places of the tokens increase strictly (`pairwise_tokenize`).
-/
import ClipScript.Proofs.Token.Lexemes

set_option autoImplicit false

namespace ClipScript

variable {style : CommentStyle}

/-! ## Reading a place -/

/-- The lines of a text. -/
def linesOf (cs : List Char) : List (List Char) := cs.splitOn '\n'

/-- **A place at which a text has certain characters:** the line reaches beyond the column, and
from there on it and the lines after it begin with them. -/
def PointsAt (cs : List Char) (p : Place) (found : List Char) : Prop :=
  1 ≤ p.line ∧ ∃ line later, (linesOf cs).drop (p.line - 1) = line :: later ∧
    p.offset < line.length ∧ found <+: (['\n'].intercalate (line :: later)).drop p.offset

theorem takeWhile_line {cs : List Char} (h : '\n' ∉ cs) (rest : List Char) :
    (cs ++ rest).takeWhile (· != '\n') = cs ++ rest.takeWhile (· != '\n') :=
  List.takeWhile_append_of_pos fun _ hc => by simpa using ne_of_mem_of_not_mem hc h

/-- The first line of a text. -/
theorem exists_linesOf (cs : List Char) :
    ∃ later, linesOf cs = cs.takeWhile (· != '\n') :: later := by
  unfold linesOf
  by_cases hmem : '\n' ∈ cs
  · obtain ⟨line, rest, rfl, hline⟩ := List.eq_append_cons_of_mem hmem
    rw [List.splitOn_append_cons_self_of_not_mem hline, takeWhile_line hline,
      List.takeWhile_cons_of_neg (by decide), List.append_nil]
    exact ⟨_, rfl⟩
  · have hall := takeWhile_line hmem []
    rw [List.append_nil, List.takeWhile_nil, List.append_nil] at hall
    rw [List.splitOn_eq_singleton hmem, hall]
    exact ⟨_, rfl⟩

/-- A run without line feeds stays on its line. -/
theorem Place.advance_of_not_mem (p : Place) {cs : List Char} (h : '\n' ∉ cs) :
    p.advance cs = ⟨p.line, p.offset + cs.length⟩ := by
  induction cs generalizing p with
  | nil => rfl
  | cons c cs ih =>
    rw [List.mem_cons, not_or] at h
    obtain ⟨hc, hcs⟩ := h
    rw [show p.advance (c :: cs) = (p.step c).advance cs from rfl, ih _ hcs, Place.step,
      if_neg (Ne.symm hc), List.length_cons, Nat.add_right_comm, Nat.add_assoc]

/-- **The line behind some characters.** What follows them is what is left of the lines from there
on, without as many characters as the column says. The induction is on the lines that they end. -/
theorem exists_line {n : Nat} {p : Place} (before after : List Char)
    (hp : (⟨n, 0⟩ : Place).advance before = p) :
    n ≤ p.line ∧ ∃ line later, (linesOf (before ++ after)).drop (p.line - n) = line :: later ∧
      line.length = p.offset + (after.takeWhile (· != '\n')).length ∧
      (['\n'].intercalate (line :: later)).drop p.offset = after := by
  by_cases hmem : '\n' ∈ before
  · obtain ⟨first, rest, hbefore, hfirst⟩ := List.eq_append_cons_of_mem hmem
    have hlt : rest.length < before.length := by
      rw [hbefore, List.length_append, List.length_cons]
      omega
    -- behind the first line feed the next line starts
    have hrest : (⟨n + 1, 0⟩ : Place).advance rest = p := by
      rw [← hp, hbefore, Place.advance_append, Place.advance_of_not_mem _ hfirst]
      rfl
    have hlines : linesOf (before ++ after) = first :: linesOf (rest ++ after) := by
      rw [hbefore, List.append_assoc]
      exact List.splitOn_append_cons_self_of_not_mem hfirst _
    obtain ⟨hle, line, later, hdrop, hlength, htext⟩ := exists_line rest after hrest
    refine ⟨by omega, line, later, ?_, hlength, htext⟩
    rw [hlines, show p.line - n = p.line - (n + 1) + 1 by omega, List.drop_succ_cons, hdrop]
  · obtain ⟨later, hlines⟩ := exists_linesOf (before ++ after)
    have htext : ['\n'].intercalate (linesOf (before ++ after)) = before ++ after :=
      List.intercalate_splitOn '\n'
    rw [Place.advance_of_not_mem _ hmem] at hp
    obtain rfl := hp
    refine ⟨Nat.le_refl n, (before ++ after).takeWhile (· != '\n'), later, ?_, ?_, ?_⟩
    · rw [Nat.sub_self, List.drop_zero, hlines]
    · rw [takeWhile_line hmem, List.length_append, Nat.zero_add]
    · rw [← hlines, htext, Nat.zero_add, List.drop_left]
termination_by before.length

/-- Behind some characters a text points at what comes next, if that does not begin with a line
feed. -/
theorem pointsAt_advance (before after : List Char) {c : Char} (hc : c ≠ '\n') (cs : List Char) :
    PointsAt (before ++ (c :: cs) ++ after) (Place.start.advance before) (c :: cs) := by
  rw [List.append_assoc]
  obtain ⟨hle, line, later, hdrop, hlength, htext⟩ :=
    exists_line (p := Place.start.advance before) before (c :: cs ++ after) rfl
  refine ⟨hle, line, later, hdrop, ?_, ?_⟩
  · rw [List.cons_append, List.takeWhile_cons_of_pos (by simpa using hc), List.length_cons]
      at hlength
    omega
  · rw [htext]
    exact List.prefix_append _ _

/-! ## Tokens -/

/-- The place of a token. -/
def Token.place (t : Token) : Place := ⟨t.line, t.offset⟩

/-- A token stands behind the characters of the pieces before it. -/
theorem exists_of_mem_placeTokens {p : Place} {ps : List Piece} {t : Token}
    (h : t ∈ placeTokens p ps) :
    ∃ before after, ps.flatMap Piece.chars = before ++ t.text.toList ++ after ∧
      t.place = p.advance before := by
  induction ps generalizing p with
  | nil => cases h
  | cons q ps ih =>
    rcases q with c | ⟨kind, cs⟩
    · rw [placeTokens] at h
      obtain ⟨before, after, htext, hplace⟩ := ih h
      refine ⟨c :: before, after, ?_, hplace⟩
      rw [List.flatMap_cons, htext]
      rfl
    · rw [placeTokens] at h
      rcases List.mem_cons.1 h with rfl | h
      · refine ⟨[], ps.flatMap Piece.chars, ?_, rfl⟩
        rw [List.flatMap_cons, List.nil_append, String.toList_ofList]
        rfl
      · obtain ⟨before, after, htext, hplace⟩ := ih h
        refine ⟨cs ++ before, after, ?_, by rw [hplace, Place.advance_append]⟩
        rw [List.flatMap_cons, htext, List.append_assoc, List.append_assoc, List.append_assoc]
        rfl

/-- A lexeme begins with a character that is no line feed. -/
theorem exists_cons_of_lexeme {cs : List Char} (h : Lexeme style cs ∨ IsOpenComment cs) :
    ∃ c ds, cs = c :: ds ∧ c ≠ '\n' := by
  rcases h with h | ⟨body, rfl, -⟩
  · cases h with
    | @word c ds hchars =>
      refine ⟨c, ds, rfl, ?_⟩
      rintro rfl
      exact absurd (hchars '\n' List.mem_cons_self) (by decide)
    | quoted => exact ⟨_, _, rfl, by decide⟩
    | comment => exact ⟨_, _, rfl, by decide⟩
  · exact ⟨'#', body, rfl, by decide⟩

/-- **Every token points at its text.** -/
theorem pointsAt_of_mem_tokenize {source : String} {t : Token} (h : t ∈ tokenize style source) :
    PointsAt (blankSeparators source.toList) t.place t.text.toList := by
  have htext : t.text ∈ texts style (blankSeparators source.toList) := by
    rw [← map_text_tokenize]
    exact List.mem_map_of_mem h
  obtain ⟨c, cs, hcs, hc⟩ := exists_cons_of_lexeme ((wellLexed_texts style _).each _ htext)
  obtain ⟨before, after, hsource, hplace⟩ := exists_of_mem_placeTokens h
  rw [pieces_flatten] at hsource
  rw [hsource, hplace, hcs]
  exact pointsAt_advance before after hc cs

/-! ## The order of places -/

/-- **A place before another:** on a line above it, or further left on the same line. -/
def Place.Before (p q : Place) : Prop := p.line < q.line ∨ p.line = q.line ∧ p.offset < q.offset

instance (p q : Place) : Decidable (p.Before q) := inferInstanceAs (Decidable (_ ∨ _))

theorem Place.Before.trans {p q r : Place} (h : p.Before q) (h' : q.Before r) : p.Before r := by
  unfold Before at *
  omega

theorem Place.before_step (p : Place) (c : Char) : p.Before (p.step c) := by
  unfold Place.step
  by_cases hc : c = '\n'
  · rw [if_pos hc]
    exact .inl (Nat.lt_succ_self _)
  · rw [if_neg hc]
    exact .inr ⟨rfl, Nat.lt_succ_self _⟩

/-- Characters only lead forward. -/
theorem Place.before_advance (p : Place) {cs : List Char} (h : cs ≠ []) :
    p.Before (p.advance cs) := by
  induction cs generalizing p with
  | nil => exact absurd rfl h
  | cons c cs ih =>
    have hstep := p.before_step c
    rcases eq_or_ne cs [] with rfl | hne
    · exact hstep
    · exact hstep.trans (ih (p.step c) hne)

/-- **Tokens stand one behind the other,** from the place where the pieces begin. -/
theorem pairwise_placeTokens (p : Place) {ps : List Piece} (h : ∀ q ∈ ps, q.chars ≠ []) :
    (∀ t ∈ placeTokens p ps, t.place = p ∨ p.Before t.place) ∧
      (placeTokens p ps).Pairwise fun t u => t.place.Before u.place := by
  induction ps generalizing p with
  | nil => exact ⟨fun t ht => (List.not_mem_nil ht).elim, .nil⟩
  | cons q ps ih =>
    have hq := h q List.mem_cons_self
    have hps : ∀ q ∈ ps, q.chars ≠ [] := fun q hq => h q (List.mem_cons_of_mem _ hq)
    have hahead : ∀ {r : Place}, p.Before r → ∀ t ∈ placeTokens r ps, p.Before t.place := by
      intro r hr t ht
      rcases (ih r hps).1 t ht with heq | hbefore
      · rwa [heq]
      · exact hr.trans hbefore
    rcases q with c | ⟨kind, cs⟩
    · exact ⟨fun t ht => .inr (hahead (p.before_step c) t ht), (ih _ hps).2⟩
    · have hrest := hahead (p.before_advance hq)
      rw [placeTokens]
      constructor
      · intro t ht
        rcases List.mem_cons.1 ht with rfl | ht
        · exact .inl rfl
        · exact .inr (hrest t ht)
      · exact List.pairwise_cons.2 ⟨hrest, (ih _ hps).2⟩

theorem chars_ne_nil_of_mem_pieces (cs : List Char) : ∀ q ∈ pieces style cs, q.chars ≠ [] := by
  fun_induction pieces style cs with
  | case1 => exact fun q hq => (List.not_mem_nil hq).elim
  | case2 c cs p ih =>
    intro q hq
    rcases List.mem_cons.1 hq with rfl | hq
    · exact List.ne_nil_of_length_pos (firstPiece_pos style c cs)
    · exact ih q hq

/-- **The places of the tokens of a text increase.** -/
theorem pairwise_tokenize (style : CommentStyle) (source : String) :
    (tokenize style source).Pairwise fun t u => t.place.Before u.place :=
  (pairwise_placeTokens .start (chars_ne_nil_of_mem_pieces _)).2

end ClipScript
