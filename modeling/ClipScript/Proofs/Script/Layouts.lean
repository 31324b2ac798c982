/-
# Layouts of a script

A script can be laid out at will: on one line or on many, with semicolons between the
directives or without, with blanks in front of it and behind it. What it says is in its
*items*, the words and quoted texts, and they have to be kept apart by a separating
character at least (`LaidOut`).

The tokens of a layout have the items for texts (`map_text_tokenize_laidOut`), and tokens
with the same texts come to the same, apart from their places (`Registry.segments_agree`).
So two layouts of the same items give the same commands and snippets, and the same diagnostics
up to their places (`parse_layout`). The items are arbitrary: directives among them may be
rejected, and a text in quotes may run over line ends.
-/
import ClipScript.Proofs.Failing
import ClipScript.Proofs.Script.Cuts
import ClipScript.Proofs.Script.Places
import ClipScript.Proofs.Token.Appending

set_option autoImplicit false

namespace ClipScript

open Text

/-! ## Items and layouts -/

/-- A character that keeps items apart. -/
def isSeparating (c : Char) : Bool := isBlank c || c = ';'

/-- **An item:** a word, or a text in quotes. -/
inductive IsItem : List Char → Prop where
  | word {cs : List Char} (nonempty : cs ≠ [])
      (chars : cs.all (fun c => !isSeparating c && c != '"' && c != '#') = true) : IsItem cs
  | quoted {body : List Char} (chars : body.all (fun c => c != '"' && c != ';') = true) :
      IsItem ('"' :: body ++ ['"'])

/-- **Items that are laid out:** a gap of separating characters in front of each, which may be
empty in front of the first, and one behind the last, which may be empty too. -/
inductive LaidOut : List String → List Char → Prop where
  | gap {gap : List Char} (separating : gap.all isSeparating = true) : LaidOut [] gap
  /-- What is laid out behind an item starts with a gap, if it is not empty. -/
  | item {gap : List Char} {w : String} {ws : List String} {rest : List Char}
      (separating : gap.all isSeparating = true) (item : IsItem w.toList)
      (apart : ∀ c ∈ rest.head?, isSeparating c = true) (laid : LaidOut ws rest) :
      LaidOut (w :: ws) (gap ++ w.toList ++ rest)

/-- **A layout from its gaps:** one in front of each item, where only the first can be empty, and
one behind the last. -/
theorem laidOut_of_gaps {xs : List (List Char × String)} {last : List Char}
    (hitems : ∀ x ∈ xs, IsItem x.2.toList) (hgaps : ∀ x ∈ xs, x.1.all isSeparating = true)
    (hapart : ∀ x ∈ xs.tail, x.1 ≠ []) (hlast : last.all isSeparating = true) :
    LaidOut (xs.map Prod.snd) (xs.flatMap (fun x => x.1 ++ x.2.toList) ++ last) := by
  induction xs with
  | nil => exact .gap hlast
  | cons x xs ih =>
    rw [List.map_cons, List.flatMap_cons, List.append_assoc]
    refine .item (hgaps x List.mem_cons_self) (hitems x List.mem_cons_self) ?_ ?_
    · intro c hc
      cases xs with
      | nil => exact List.all_eq_true.1 hlast c (List.mem_of_mem_head? hc)
      | cons y ys =>
        -- the gap in front of the next item has a first character
        obtain ⟨d, gap, hgap⟩ := List.exists_cons_of_ne_nil (hapart y List.mem_cons_self)
        have hy := hgaps y (List.mem_cons_of_mem _ List.mem_cons_self)
        rw [hgap] at hy
        rw [List.flatMap_cons, hgap] at hc
        obtain rfl : d = c := Option.some.inj hc
        exact List.all_eq_true.1 hy d List.mem_cons_self
    · apply ih
      · exact fun y hy => hitems y (List.mem_cons_of_mem _ hy)
      · exact fun y hy => hgaps y (List.mem_cons_of_mem _ hy)
      · exact fun y hy => hapart y (List.mem_of_mem_tail hy)

/-! ## The tokens of a layout -/

variable {style : CommentStyle}

/-- An item is a lexeme of any style, and no comment. -/
theorem IsItem.lexeme {cs : List Char} (h : IsItem cs) :
    Lexeme style cs ∧ cs.head? ≠ some '#' ∧ ';' ∉ cs := by
  cases h with
  | word nonempty chars =>
    obtain ⟨c, cs, rfl⟩ := List.exists_cons_of_ne_nil nonempty
    have hchars : ∀ d ∈ c :: cs, (isBlank d = false ∧ d ≠ ';') ∧ d ≠ '"' ∧ d ≠ '#' := by
      intro d hd
      simpa [isSeparating, and_assoc] using List.all_eq_true.1 chars d hd
    refine ⟨.word ?_, ?_, ?_⟩
    · intro d hd
      obtain ⟨⟨hblank, -⟩, hquote, hhash⟩ := hchars d hd
      simp [isWordChar, hblank, hquote, hhash]
    · intro hhead
      exact (hchars c List.mem_cons_self).2.2 (Option.some.inj hhead)
    · intro hmem
      exact (hchars ';' hmem).1.2 rfl
  | @quoted body chars =>
    have hchars : ∀ d ∈ body, d ≠ '"' ∧ d ≠ ';' := by
      intro d hd
      simpa using List.all_eq_true.1 chars d hd
    refine ⟨.quoted fun hmem => (hchars '"' hmem).1 rfl, by simp, ?_⟩
    intro hmem
    have hbody : ';' ∈ body := by simpa using hmem
    exact (hchars ';' hbody).2 rfl

/-- What keeps items apart is blank once separators are spaces. -/
theorem isBlank_of_isSeparating {c : Char} (h : isSeparating c = true) :
    isBlank (if c = ';' then ' ' else c) = true := by
  by_cases hc : c = ';'
  · rw [if_pos hc]
    decide
  · rw [if_neg hc]
    simpa [isSeparating, hc] using h

/-- A gap has no tokens. -/
theorem texts_gap {gap : List Char} (h : gap.all isSeparating = true) (rest : List Char) :
    texts style (blankSeparators (gap ++ rest)) = texts style (blankSeparators rest) := by
  induction gap with
  | nil => rfl
  | cons c gap ih =>
    obtain ⟨hc, hgap⟩ := Bool.and_eq_true_iff.1 h
    rw [List.cons_append, blankSeparators, List.map_cons, texts_blank (isBlank_of_isSeparating hc)]
    exact ih hgap

/-- **The tokens of a layout** have its items for texts, in either style. -/
theorem texts_laidOut {items : List String} {cs : List Char} (h : LaidOut items cs) :
    texts style (blankSeparators cs) = items := by
  induction h with
  | @gap gap separating =>
    have hgap := @texts_gap style gap separating []
    rw [List.append_nil] at hgap
    rw [hgap, show blankSeparators [] = [] from rfl, texts, pieces]
    rfl
  | @item gap w ws rest separating item apart _ ih =>
    obtain ⟨hlexeme, hhash, hseparator⟩ := @IsItem.lexeme style _ item
    have hblank : ∀ d ∈ (blankSeparators rest).head?, isBlank d = true := by
      intro d hd
      rw [blankSeparators, List.head?_map, Option.mem_def, Option.map_eq_some_iff] at hd
      obtain ⟨c, hc, rfl⟩ := hd
      exact isBlank_of_isSeparating (apart c hc)
    rw [List.append_assoc, texts_gap separating, blankSeparators_append,
      blankSeparators_eq_self hseparator, texts_lexeme hlexeme hblank fun hh => absurd hh hhash, ih]

theorem map_text_tokenize_laidOut {items : List String} {source : String}
    (h : LaidOut items source.toList) (style : CommentStyle) :
    (tokenize style source).map Token.text = items := by
  rw [map_text_tokenize, texts_laidOut h]

/-! ## Tokens with the same texts -/

/-- A diagnostic without its place. -/
def Diagnostic.unplaced (d : Diagnostic) : Diagnostic := { d with line := none, offset := none }

variable {α : Type}

/-- **Scripts that say the same,** wherever it stands in them. -/
structure Script.SaysSame (s s' : Script α) : Prop where
  commands : s.commands = s'.commands
  snippets : s.snippets = s'.snippets
  errors : s.errors = s'.errors
  diagnostics : s.diagnostics.map Diagnostic.unplaced = s'.diagnostics.map Diagnostic.unplaced

/-- A word with some text, at one fixed place. -/
def Token.atOrigin (t : Token) : Token := ⟨.word, t.text, 0, 0⟩

def Diagnostic.atOrigin (d : Diagnostic) : Diagnostic :=
  { d with line := some 0, offset := some 0 }

/-- All tokens can be moved to one place. -/
theorem moves_atOrigin : Moves Token.atOrigin Diagnostic.atOrigin :=
  ⟨fun _ => rfl, fun _ _ _ _ => rfl⟩

/-- Segments that are the same in one place say the same. -/
theorem saysSame_of_atOrigin {segments segments' : List (Segment α)}
    (h : segments.map (Segment.moved Token.atOrigin Diagnostic.atOrigin) =
      segments'.map (Segment.moved Token.atOrigin Diagnostic.atOrigin)) :
    Script.SaysSame ⟨segments⟩ ⟨segments'⟩ := by
  have hunderstood : Script.understood ⟨segments⟩ = Script.understood ⟨segments'⟩ := by
    rw [Script.understood, ← moves_atOrigin.understood_eq, h, moves_atOrigin.understood_eq,
      Script.understood]
  -- the diagnostics are the same in one place, so what does not depend on it is the same
  have hdiagnostics : (Script.diagnostics ⟨segments⟩).map Diagnostic.atOrigin =
      (Script.diagnostics ⟨segments'⟩).map Diagnostic.atOrigin := by
    rw [Script.diagnostics, Script.diagnostics, ← @Moves.diagnostics_eq _ Token.atOrigin,
      ← @Moves.diagnostics_eq _ Token.atOrigin, h]
  have hsame : ∀ {β : Type} (g : Diagnostic → β), (∀ d, g d.atOrigin = g d) →
      (Script.diagnostics ⟨segments⟩).map g = (Script.diagnostics ⟨segments'⟩).map g := by
    intro β g hg
    have hmap := congrArg (List.map g) hdiagnostics
    rw [List.map_map, List.map_map] at hmap
    rwa [show g ∘ Diagnostic.atOrigin = g from funext hg] at hmap
  exact ⟨by rw [Script.commands, hunderstood, Script.commands],
    by rw [Script.snippets, hunderstood, Script.snippets], hsame _ fun _ => rfl,
    hsame _ fun _ => rfl⟩

/-- **Tokens with the same texts** come to scripts that say the same. -/
theorem Registry.segments_agree {r : Registry α} (hr : ∀ p ∈ r.patterns, p.WellPlaced)
    {ts ts' : List Token} (h : ts.map Token.text = ts'.map Token.text) :
    Agree (fun segments segments' => Script.SaysSame ⟨segments⟩ ⟨segments'⟩)
      (r.segments ts) (r.segments ts') := by
  have hmoved : ts.map Token.atOrigin = ts'.map Token.atOrigin := by
    have hmap := congrArg (List.map fun w => (⟨.word, w, 0, 0⟩ : Token)) h
    rwa [List.map_map, List.map_map] at hmap
  have hsegments := moves_atOrigin.segments_eq hr ts
  rw [hmoved, moves_atOrigin.segments_eq hr ts'] at hsegments
  -- both fail with the same fault, or come to segments that are the same in one place
  rcases hs : r.segments ts with f | segments
  · rcases hs' : r.segments ts' with f' | segments'
    · rw [hs, hs'] at hsegments
      obtain rfl := Except.error.inj hsegments
      exact .fails _
    · rw [hs, hs'] at hsegments
      cases hsegments
  · rcases hs' : r.segments ts' with f' | segments'
    · rw [hs, hs'] at hsegments
      cases hsegments
    · rw [hs, hs'] at hsegments
      exact .ok (saysSame_of_atOrigin (Except.ok.inj hsegments).symm)

/-! ## Scripts -/

/-- **Layout does not matter:** two layouts of the same items are scripts that say the same, or
fail with the same fault, whatever the styles of their comments. They are scripts if the numerals
in the items are short. -/
theorem parse_layout {items : List String} {source source' : String}
    (h : LaidOut items source.toList) (h' : LaidOut items source'.toList)
    (style style' : CommentStyle) :
    Agree Script.SaysSame (parse style source) (parse style' source') ∧
      ((∀ w ∈ items, ShortNumerals w.toList) → ∃ s s', parse style source = .ok s ∧
        parse style' source' = .ok s' ∧ s.SaysSame s') := by
  have htexts := map_text_tokenize_laidOut h style
  have htexts' := map_text_tokenize_laidOut h' style'
  have hagree : Agree Script.SaysSame (parse style source) (parse style' source') := by
    have hsegments := @Registry.segments_agree _ directives wellPlaced_directives
      _ _ (htexts.trans htexts'.symm)
    exact hsegments.map fun _ _ hsame => hsame
  refine ⟨hagree, ?_⟩
  intro hshort
  obtain ⟨s, hs⟩ : ∃ s, parse style source = .ok s := by
    apply parse_of_short
    intro t ht
    apply hshort
    rw [← htexts]
    exact List.mem_map_of_mem ht
  rw [hs] at hagree
  -- the other one does not fail either
  rcases hs' : parse style' source' with f | s'
  · rw [hs'] at hagree
    cases hagree
  · rw [hs'] at hagree
    exact ⟨s, s', hs, rfl, hagree.related⟩

/-- A directive that is rejected, one that is made, and a word that is no keyword. -/
def someItems : List String := ["crop", "\"# 5px\n\"", "convert", "to", "webm", "5"]

theorem isItem_of_mem_someItems {w : String} (h : w ∈ someItems) : IsItem w.toList := by
  by_cases hquoted : w = "\"# 5px\n\""
  · subst hquoted
    exact @IsItem.quoted "# 5px\n".toList (by decide)
  · have hchars : ∀ v ∈ someItems, v ≠ "\"# 5px\n\"" → v.toList ≠ [] ∧
        v.toList.all (fun c => !isSeparating c && c != '"' && c != '#') = true := by
      decide
    exact .word (hchars w h hquoted).1 (hchars w h hquoted).2

/-- The items in one line, and in four with separators in front of them and behind. -/
theorem parse_layout_someItems :
    ∃ s s', parse .withLineFeed "crop \"# 5px\n\" convert to webm 5" = .ok s ∧
      parse .bare "; crop\t\"# 5px\n\"\n;convert ; to\n webm 5;\n" = .ok s' ∧ s.SaysSame s' := by
  have hitems : ∀ gaps : List (List Char), ∀ x ∈ gaps.zip someItems, IsItem x.2.toList :=
    fun _ _ hx => isItem_of_mem_someItems (List.of_mem_zip hx).2
  have hline : LaidOut someItems "crop \"# 5px\n\" convert to webm 5".toList :=
    @laidOut_of_gaps ((["", " ", " ", " ", " ", " "].map String.toList).zip someItems) []
      (hitems _) (by decide) (by decide) (by decide)
  have hlines : LaidOut someItems "; crop\t\"# 5px\n\"\n;convert ; to\n webm 5;\n".toList :=
    @laidOut_of_gaps ((["; ", "\t", "\n;", " ; ", "\n ", " "].map String.toList).zip someItems)
      ";\n".toList (hitems _) (by decide) (by decide) (by decide)
  refine (parse_layout hline hlines .withLineFeed .bare).2 ?_
  have hshort : ∀ w ∈ someItems, w.toList.length ≤ Number.digitLimit := by decide
  exact fun w hw ds _ hin => hin.length_le.trans (hshort w hw)

end ClipScript
