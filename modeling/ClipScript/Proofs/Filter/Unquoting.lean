/-
# Reading quoted texts back

What the encoder makes of a text that is quoted (`unquote`): the signs of quoting are gone,
and every other character that its scan comes to stands for itself. Both ways of quoting are
reversible. An option value is read back as it was (`unquote_quote`), and a text to be drawn
with its backslashes doubled, since drawing expands them once more (`unquote_drawn`).

The first way may leave a text without quotes, and has to leave the quotes for a quote in the
text. What then stands outside has no meaning there (`outside_quote`), which is why the value
of an option ends where it should (`optionValue?_drawText`).

A text has no filter to be read back from when its margin is too large to be written, wherever
the text is placed (`drawText_of_unwritten`).

All of this is settled character by character, by what is read in quotes of the way in which
one character is written (`ReadsQuoted`).
-/
import ClipScript.Proofs.Filter.Fragments

set_option autoImplicit false

namespace ClipScript.Filter

open Number Text

/-! ## Reading -/

/-- A sign of quoting: a quote that opens or closes, or a backslash outside. -/
def Mode.isSign : Mode → Char → Bool
  | outside, c => c = '\'' || c = '\\'
  | escaped, _ => false
  | quoted, c => c = '\''

/-- What is read of some characters: all but the signs of quoting. -/
def unquoteFrom : Mode → List Char → List Char
  | _, [] => []
  | m, c :: cs =>
    if m.isSign c then unquoteFrom (m.step c) cs else c :: unquoteFrom (m.step c) cs

/-- **A text as it is read,** its quotes being taken off. -/
def unquote (t : String) : String := String.ofList (unquoteFrom .outside t.toList)

/-- The characters that are not in quotes. -/
def outsideFrom : Mode → List Char → List Char
  | _, [] => []
  | m, c :: cs => if m = .quoted then outsideFrom (m.step c) cs else c :: outsideFrom (m.step c) cs

/-- **The characters of a text outside quotes,** the quotes that open included. -/
def outside (t : String) : List Char := outsideFrom .outside t.toList

theorem unquoteFrom_append (m : Mode) (cs ds : List Char) :
    unquoteFrom m (cs ++ ds) = unquoteFrom m cs ++ unquoteFrom (m.after cs) ds := by
  induction cs generalizing m with
  | nil => rfl
  | cons c cs ih =>
    rw [List.cons_append, unquoteFrom, unquoteFrom, ih,
      show m.after (c :: cs) = (m.step c).after cs from rfl]
    by_cases hsign : m.isSign c = true
    · rw [if_pos hsign, if_pos hsign]
    · rw [if_neg hsign, if_neg hsign, List.cons_append]

theorem outsideFrom_append (m : Mode) (cs ds : List Char) :
    outsideFrom m (cs ++ ds) = outsideFrom m cs ++ outsideFrom (m.after cs) ds := by
  induction cs generalizing m with
  | nil => rfl
  | cons c cs ih =>
    rw [List.cons_append, outsideFrom, outsideFrom, ih,
      show m.after (c :: cs) = (m.step c).after cs from rfl]
    by_cases hquoted : m = .quoted
    · rw [if_pos hquoted, if_pos hquoted]
    · rw [if_neg hquoted, if_neg hquoted, List.cons_append]

/-- What is outside is part of the text. -/
theorem mem_of_mem_outsideFrom {m : Mode} {cs : List Char} {c : Char} (h : c ∈ outsideFrom m cs) :
    c ∈ cs := by
  induction cs generalizing m with
  | nil => cases h
  | cons d cs ih =>
    rw [outsideFrom] at h
    split at h
    · exact List.mem_cons_of_mem _ (ih h)
    · rcases List.mem_cons.1 h with rfl | h
      · exact List.mem_cons_self
      · exact List.mem_cons_of_mem _ (ih h)

/-- Without signs of quoting a text is read as it is. -/
theorem unquoteFrom_of_forall {cs : List Char} (h : ∀ c ∈ cs, c ≠ '\'' ∧ c ≠ '\\') :
    unquoteFrom .outside cs = cs := by
  induction cs with
  | nil => rfl
  | cons c cs ih =>
    obtain ⟨hquote, hbackslash⟩ := h c List.mem_cons_self
    have hsign : Mode.outside.isSign c = false := by
      rw [Mode.isSign, decide_eq_false hquote, decide_eq_false hbackslash]
      rfl
    rw [unquoteFrom, if_neg (by simp [hsign]), Mode.step_outside hquote hbackslash,
      ih fun d hd => h d (List.mem_cons_of_mem _ hd)]

/-! ## Ways of writing in quotes -/

/-- **A way of writing characters in quotes and what is read of it.** It stays in quotes, and only
signs of quoting are outside meanwhile. -/
structure ReadsQuoted (write read : Char → List Char) : Prop where
  stays : StaysQuoted write
  unquoted (c : Char) : unquoteFrom .quoted (write c) = read c
  signs (c d : Char) : d ∈ outsideFrom .quoted (write c) → d = '\'' ∨ d = '\\'

namespace ReadsQuoted

variable {write read : Char → List Char}

theorem unquoteFrom_flatMap (h : ReadsQuoted write read) (cs : List Char) :
    unquoteFrom .quoted (cs.flatMap write) = cs.flatMap read := by
  induction cs with
  | nil => rfl
  | cons c cs ih =>
    rw [List.flatMap_cons, List.flatMap_cons, unquoteFrom_append, (h.stays c).1, h.unquoted, ih]

theorem outsideFrom_flatMap (h : ReadsQuoted write read) {cs : List Char} {d : Char}
    (hd : d ∈ outsideFrom .quoted (cs.flatMap write)) : d = '\'' ∨ d = '\\' := by
  induction cs with
  | nil => cases hd
  | cons c cs ih =>
    rw [List.flatMap_cons, outsideFrom_append, (h.stays c).1, List.mem_append] at hd
    rcases hd with hd | hd
    · exact h.signs c d hd
    · exact ih hd

/-- **Between single quotes** a run is read as its characters are. -/
theorem unquoteFrom_quoted (h : ReadsQuoted write read) (cs : List Char) :
    unquoteFrom .outside ('\'' :: cs.flatMap write ++ ['\'']) = cs.flatMap read := by
  rw [List.cons_append, show unquoteFrom .outside ('\'' :: (cs.flatMap write ++ ['\''])) =
      unquoteFrom .quoted (cs.flatMap write ++ ['\'']) from rfl, unquoteFrom_append,
    h.unquoteFrom_flatMap, (h.stays.flatMap cs).1]
  exact List.append_nil _

/-- And outside there are only signs of quoting. -/
theorem outsideFrom_quoted (h : ReadsQuoted write read) {cs : List Char} {d : Char}
    (hd : d ∈ outsideFrom .outside ('\'' :: cs.flatMap write ++ ['\''])) : d = '\'' ∨ d = '\\' := by
  rw [List.cons_append, show outsideFrom .outside ('\'' :: (cs.flatMap write ++ ['\''])) =
      '\'' :: outsideFrom .quoted (cs.flatMap write ++ ['\'']) from rfl, outsideFrom_append,
    (h.stays.flatMap cs).1, List.mem_cons, List.mem_append] at hd
  rcases hd with rfl | hd | hd
  · exact .inl rfl
  · exact h.outsideFrom_flatMap hd
  · cases hd

end ReadsQuoted

/-- Any character but the quote is read as it is in quotes. -/
theorem unquoteFrom_quoted_singleton {c : Char} (h : c ≠ '\'') : unquoteFrom .quoted [c] = [c] := by
  rw [unquoteFrom, Mode.isSign, if_neg (by simpa using h)]
  rfl

theorem readsQuoted_quotedChar : ReadsQuoted quotedChar fun c => [c] := by
  refine ⟨staysQuoted_quotedChar, fun c => ?_, fun c d hd => ?_⟩
  · rw [quotedChar]
    split
    · -- the quote is read outside, behind the backslash
      next hquote => rw [hquote]; rfl
    · next hquote => exact unquoteFrom_quoted_singleton hquote
  · rw [quotedChar] at hd
    split at hd
    · have hsigns : outsideFrom .quoted ['\'', '\\', '\'', '\''] = ['\\', '\'', '\''] := by decide
      simp only [hsigns, List.mem_cons, List.not_mem_nil, or_false, or_self] at hd
      exact hd.symm
    · cases hd

/-- A character of a text to be drawn, as it is read. -/
def doubledChar (c : Char) : List Char := if c = '\\' then ['\\', '\\'] else [c]

theorem readsQuoted_drawnChar : ReadsQuoted drawnChar doubledChar := by
  refine ⟨staysQuoted_drawnChar, fun c => ?_, fun c d hd => ?_⟩
  · rw [drawnChar, doubledChar]
    split
    · rfl
    · exact readsQuoted_quotedChar.unquoted c
  · rw [drawnChar] at hd
    split at hd
    · cases hd
    · exact readsQuoted_quotedChar.signs c d hd

/-! ## Option values -/

/-- **An option value is read back** as it was. -/
theorem unquote_quote (v : String) : unquote (quote v) = v := by
  have hchars : unquoteFrom .outside (quoteChars v.toList) = v.toList := by
    rw [quoteChars]
    split
    · rw [readsQuoted_quotedChar.unquoteFrom_quoted, List.flatMap_singleton']
    · next hspecial =>
      -- quotes and backslashes are special, so there are none
      rw [List.any_eq_true, not_exists] at hspecial
      refine unquoteFrom_of_forall fun c hc => ⟨?_, ?_⟩
      · rintro rfl
        exact hspecial _ ⟨hc, by decide⟩
      · rintro rfl
        exact hspecial _ ⟨hc, by decide⟩
  rw [unquote, quote, String.toList_ofList, hchars, String.ofList_toList]

/-- A quote in the text stands between two runs in quotes. -/
example : quote "it's" = "'it'\\''s'" ∧ unquote "'it'\\''s'" = "it's" := by decide

/-- **Outside its quotes** an option value has neither blanks nor marks. -/
theorem outside_quote {v : String} {c : Char} (h : c ∈ outside (quote v)) :
    isBlank c = false ∧ isMark c = false := by
  rw [outside, quote, String.toList_ofList, quoteChars] at h
  split at h
  · rcases readsQuoted_quotedChar.outsideFrom_quoted h with rfl | rfl
    · decide
    · decide
  · next hspecial =>
    -- without quotes there is nothing special in it
    rw [List.any_eq_true, not_exists] at hspecial
    have hnone : isSpecial c = false := by
      simpa [mem_of_mem_outsideFrom h] using hspecial c
    simp only [isSpecial, Bool.or_eq_false_iff] at hnone
    simp only [isMark, hnone, Bool.or_self, and_self]

/-! ## Texts to be drawn -/

/-- **A pair of backslashes** stands for one. -/
def halved : List Char → List Char
  | '\\' :: '\\' :: cs => '\\' :: halved cs
  | c :: cs => c :: halved cs
  | [] => []

theorem halved_doubledChar (cs : List Char) : halved (cs.flatMap doubledChar) = cs := by
  induction cs with
  | nil => rfl
  | cons c cs ih =>
    rw [List.flatMap_cons, doubledChar]
    split
    · next hbackslash =>
      rw [hbackslash]
      exact congrArg ('\\' :: ·) ih
    · next hbackslash =>
      rw [List.singleton_append, halved, ih]
      rintro _ rfl
      exact absurd rfl hbackslash

/-- **A text that is drawn** is read with its backslashes doubled. -/
theorem unquote_drawn (s : String) :
    unquote ("'" ++ drawn s ++ "'") =
      String.ofList ((strip (· == '"') s.toList).flatMap doubledChar) := by
  rw [unquote, toList_drawn, readsQuoted_drawnChar.unquoteFrom_quoted]

/-! ## Options of a filter -/

/-- The options of a filter: what stands behind the first equals sign, cut at the colons outside
quotes. -/
def optionsOf (filter : String) : List (List Char) :=
  cutFrom (· == ':') .outside ((filter.toList.dropWhile (· != '=')).drop 1)

/-- **The value of an option** of a filter, up to the first colon outside quotes. -/
def optionValue? (filter key : String) : Option String :=
  ((optionsOf filter).find? ((key ++ "=").toList.isPrefixOf ·)).map fun o =>
    String.ofList (o.drop (key ++ "=").length)

theorem separates_colon : Separates (· == ':') := by
  intro c hc
  obtain rfl := eq_of_beq hc
  rfl

/-- **A mute text that is the first option** is its value, whatever options come behind it. -/
theorem optionValue?_text {value : String} (h : Mute value.toList) (options : String) :
    optionValue? ("drawtext=text=" ++ value ++ (":" ++ options)) "text" = some value := by
  have hoption : Mode.outside.after ("text=" ++ value).toList = .outside := by
    have hkey : Closed "text=" := by decide
    exact hkey.append h.closed
  have hmarks : ∀ c ∈ marksFrom .outside ("text=" ++ value).toList, (c == ':') = false := by
    have hkey : Closed "text=" := by decide
    rw [show marksFrom .outside ("text=" ++ value).toList = marks ("text=" ++ value) from rfl,
      hkey.marks_append, show marks value = [] from h.marks, show marks "text=" = ['='] by decide]
    exact List.forall_mem_singleton.2 (by decide)
  have hbehind : (("drawtext=text=" ++ value ++ (":" ++ options)).toList.dropWhile
      (· != '=')).drop 1 = ("text=" ++ value).toList ++ ':' :: options.toList := by
    simp [String.toList_append]
  rw [optionValue?, optionsOf, hbehind, cutFrom_append separates_colon rfl hoption,
    cutFrom_of_forall separates_colon hmarks, List.singleton_append, List.find?_cons_of_pos]
  · rw [Option.map_some, String.toList_append, List.drop_left' (by decide), String.ofList_toList]
  · simp [String.toList_append]

/-- **The value of the text of a filter that draws** is the text in its quotes. -/
theorem optionValue?_drawText {text filter : String} {place : Placement} {alignment : Alignment}
    {margin : Int} (h : drawText text (.known place) (.known alignment) margin = .ok filter) :
    optionValue? filter "text" = some ("'" ++ drawn text ++ "'") := by
  simp only [drawText, bind_eq_ok] at h
  obtain ⟨⟨x, y⟩, -, h⟩ := h
  have hoptions : ∃ options, filter = "drawtext=text=" ++ ("'" ++ drawn text ++ "'") ++
      (":" ++ options) := by
    rw [drawn_between_quotes, show ":fontsize=24:fontcolor=white:x=" =
      ":" ++ "fontsize=24:fontcolor=white:x=" from rfl] at h
    rw [← Except.ok.inj h]
    split
    · exact ⟨"fontsize=24:fontcolor=white:x=" ++ x ++ ":y=" ++ y, by
        simp only [String.append_assoc]⟩
    · exact ⟨"fontsize=24:fontcolor=white:x=" ++ x ++ ":y=" ++ y ++ ":text_align=" ++
        (Word.known alignment).text, by simp only [String.append_assoc]⟩
  obtain ⟨options, rfl⟩ := hoptions
  exact optionValue?_text (mute_drawn text) options

/-- **Drawing a text** takes nothing but a padding that can be written. -/
theorem drawText_of_written (text : String) (place : Placement) (alignment : Alignment)
    {margin : Int} (h : (edgePadding + margin).natAbs < 10 ^ digitLimit) :
    ∃ filter, drawText text (.known place) (.known alignment) margin = .ok filter := by
  rw [drawText, textCoordinates, writeInt_ok_iff.2 ⟨rfl, h⟩]
  exact ⟨_, rfl⟩

/-- A padding that cannot be written is needed at every place, in the middle of the frame too. -/
theorem drawText_of_unwritten (text : String) (place : Placement) (alignment : Alignment)
    {margin : Int} (h : 10 ^ digitLimit ≤ (edgePadding + margin).natAbs) :
    drawText text (.known place) (.known alignment) margin = .error .numeralTooLong := by
  rw [drawText, textCoordinates, writeInt_error_iff.2 ⟨rfl, h⟩]
  rfl

/-- **A text that is read back** from the filter that draws it: the value of its text, which ends
at the first colon outside quotes, is the text but for the double quotes at its ends and for its
backslashes, which are doubled. -/
def ReadsBack (text : String) (place : Placement) (alignment : Alignment) (margin : Int) : Prop :=
  ∃ filter value, drawText text (.known place) (.known alignment) margin = .ok filter ∧
    optionValue? filter "text" = some value ∧
    halved (unquote value).toList = strip (· == '"') text.toList

/-- **Quoting is reversible.** An option value is read back as it was, and outside its quotes it
has neither blanks nor marks. A text that is drawn is read back exactly if its margin and the
padding come to a number that can be written, and has no filter otherwise. -/
theorem quoting_reversible (v text : String) (place : Placement) (alignment : Alignment)
    (margin : Int) :
    unquote (quote v) = v ∧ (∀ c ∈ outside (quote v), isBlank c = false ∧ isMark c = false) ∧
      (ReadsBack text place alignment margin ↔
        (edgePadding + margin).natAbs < 10 ^ digitLimit) ∧
      (¬ ReadsBack text place alignment margin →
        drawText text (.known place) (.known alignment) margin = .error .numeralTooLong) := by
  have hreads (h : (edgePadding + margin).natAbs < 10 ^ digitLimit) :
      ReadsBack text place alignment margin := by
    obtain ⟨filter, hfilter⟩ := drawText_of_written text place alignment h
    refine ⟨filter, _, hfilter, optionValue?_drawText hfilter, ?_⟩
    rw [unquote_drawn, String.toList_ofList, halved_doubledChar]
  have hfails (h : ¬ (edgePadding + margin).natAbs < 10 ^ digitLimit) :=
    drawText_of_unwritten text place alignment (Nat.not_lt.1 h)
  refine ⟨unquote_quote v, fun c hc => outside_quote hc, ⟨?_, hreads⟩,
    fun h => hfails fun hlt => h (hreads hlt)⟩
  rintro ⟨filter, -, hfilter, -⟩
  by_contra hlong
  cases hfilter.symm.trans (hfails hlong)

/-- **Not every text is read back:** with the largest margin that can be read, the number to be
written has one digit too many. -/
theorem drawText_largeMargin :
    (10 ^ digitLimit - 1 : Int).natAbs < 10 ^ digitLimit ∧
      drawText "a" (.known .center) (.known .left) (10 ^ digitLimit - 1) =
        .error .numeralTooLong ∧
      ¬ ∀ (text : String) (place : Placement) (alignment : Alignment) (margin : Int),
        margin.natAbs < 10 ^ digitLimit → ReadsBack text place alignment margin := by
  have hcast : (10 : Int) ^ digitLimit = ((10 ^ digitLimit : Nat) : Int) :=
    (Nat.cast_pow 10 _).symm
  have hpositive : 0 < 10 ^ digitLimit := Nat.pow_pos (by decide)
  have hread : (10 ^ digitLimit - 1 : Int).natAbs < 10 ^ digitLimit := by
    rw [hcast]
    omega
  have hfails : drawText "a" (.known .center) (.known .left) (10 ^ digitLimit - 1) =
      .error .numeralTooLong := by
    refine drawText_of_unwritten "a" .center .left ?_
    rw [hcast, edgePadding]
    omega
  refine ⟨hread, hfails, fun hall => ?_⟩
  obtain ⟨filter, -, hfilter, -⟩ := hall "a" .center .left _ hread
  cases hfails.symm.trans hfilter

end ClipScript.Filter
