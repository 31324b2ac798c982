/-
# Scanning filter graphs

How the encoder tells the structure of a filter graph from the texts in it: a scan goes
over the characters and is outside quotes, behind a backslash that stands outside, or in
quotes. A single quote outside opens quotes and the next one closes them; a backslash
outside makes the next character literal; in quotes everything is literal. The *marks* are
the separators `, ; [ ] : =` that the scan comes to outside: they are the structure.

A text is *closed* if a scan that enters it outside leaves it outside. Marks of closed texts
that follow each other are the marks of each (`Closed.marks_append`), so such texts cannot
change the structure of each other. Both ways of quoting make a closed text without marks
out of any text (`mute_quote` and `mute_drawn`).
-/
import ClipScript.Filter.Quoting
import ClipScript.Proofs.Number.Written

set_option autoImplicit false

namespace ClipScript.Filter

/-! ## The scan -/

/-- Where a scan is: outside quotes, behind a backslash there, or in quotes. -/
inductive Mode where
  | outside
  | escaped
  | quoted
deriving DecidableEq, Repr

/-- Where the scan is after a character. -/
def Mode.step : Mode → Char → Mode
  | outside, c => if c = '\'' then quoted else if c = '\\' then escaped else outside
  | escaped, _ => outside
  | quoted, c => if c = '\'' then outside else quoted

/-- Where the scan is after some characters. -/
def Mode.after (m : Mode) (cs : List Char) : Mode := cs.foldl Mode.step m

/-- The separators of a filter graph. -/
def isMark (c : Char) : Bool :=
  c = ',' || c = ';' || c = '[' || c = ']' || c = ':' || c = '='

/-- **The marks** that a scan comes to outside quotes and not behind a backslash. -/
def marksFrom : Mode → List Char → List Char
  | _, [] => []
  | m, c :: cs =>
    if m = .outside ∧ isMark c = true then c :: marksFrom (m.step c) cs
    else marksFrom (m.step c) cs

/-- The marks of a text. -/
def marks (t : String) : List Char := marksFrom .outside t.toList

/-- **A closed text:** the scan of it ends outside quotes. -/
def Closed (t : String) : Prop := Mode.outside.after t.toList = .outside

instance (t : String) : Decidable (Closed t) := inferInstanceAs (Decidable (_ = _))

/-! ## Texts one after another -/

theorem Mode.after_append (m : Mode) (cs ds : List Char) :
    m.after (cs ++ ds) = (m.after cs).after ds := List.foldl_append

theorem marksFrom_append (m : Mode) (cs ds : List Char) :
    marksFrom m (cs ++ ds) = marksFrom m cs ++ marksFrom (m.after cs) ds := by
  induction cs generalizing m with
  | nil => rfl
  | cons c cs ih =>
    rw [List.cons_append, marksFrom, marksFrom, ih,
      show m.after (c :: cs) = (m.step c).after cs from rfl]
    by_cases hmark : m = .outside ∧ isMark c = true
    · rw [if_pos hmark, if_pos hmark, List.cons_append]
    · rw [if_neg hmark, if_neg hmark]

theorem Closed.append {s t : String} (hs : Closed s) (ht : Closed t) : Closed (s ++ t) := by
  unfold Closed at *
  rw [String.toList_append, Mode.after_append, hs, ht]

/-- **Behind a closed text** the marks are those that a text has by itself. -/
theorem Closed.marks_append {s : String} (hs : Closed s) (t : String) :
    marks (s ++ t) = marks s ++ marks t := by
  unfold Closed at hs
  unfold marks
  rw [String.toList_append, marksFrom_append, hs]

/-- Closed texts that are joined by commas are closed. -/
theorem closed_intercalate {ts : List String} (h : ∀ t ∈ ts, Closed t) :
    Closed (String.intercalate "," ts) := by
  induction ts with
  | nil =>
    rw [String.intercalate_nil]
    rfl
  | cons t ts ih =>
    have ht := h t List.mem_cons_self
    by_cases hts : ts = []
    · rw [hts, String.intercalate_singleton]
      exact ht
    · have hcomma : Closed "," := by decide
      rw [String.intercalate_cons_of_ne_nil hts]
      exact (ht.append hcomma).append (ih fun u hu => h u (List.mem_cons_of_mem _ hu))

/-! ## Texts without quotes -/

theorem Mode.step_outside {c : Char} (hquote : c ≠ '\'') (hbackslash : c ≠ '\\') :
    Mode.outside.step c = .outside := by
  rw [Mode.step, if_neg hquote, if_neg hbackslash]

theorem after_of_forall {cs : List Char} (h : ∀ c ∈ cs, c ≠ '\'' ∧ c ≠ '\\') :
    Mode.outside.after cs = .outside := by
  induction cs with
  | nil => rfl
  | cons c cs ih =>
    obtain ⟨hquote, hbackslash⟩ := h c List.mem_cons_self
    rw [show Mode.outside.after (c :: cs) = (Mode.outside.step c).after cs from rfl,
      Mode.step_outside hquote hbackslash]
    exact ih fun d hd => h d (List.mem_cons_of_mem _ hd)

/-- **A numeral is closed.** -/
theorem closed_of_numeral {t : String} (h : Number.Numeral t.toList) : Closed t := by
  have hquote : Number.isNumeralChar '\'' = false := by decide
  have hbackslash : Number.isNumeralChar '\\' = false := by decide
  apply after_of_forall
  intro c hc
  have hchar := h c hc
  constructor
  · rintro rfl
    rw [hquote] at hchar
    cases hchar
  · rintro rfl
    rw [hbackslash] at hchar
    cases hchar

/-! ## Texts that are quoted -/

/-- **A mute text:** one that is closed and has no marks. -/
structure Mute (cs : List Char) : Prop where
  closed : Mode.outside.after cs = .outside
  marks : marksFrom .outside cs = []

/-- Mute texts one after another are mute. -/
theorem Mute.append {cs ds : List Char} (hcs : Mute cs) (hds : Mute ds) : Mute (cs ++ ds) := by
  refine ⟨?_, ?_⟩
  · rw [Mode.after_append, hcs.closed, hds.closed]
  · rw [marksFrom_append, hcs.closed, hcs.marks, hds.marks, List.append_nil]

/-- A way of writing characters in quotes that does not leave the quotes open or shut. -/
def StaysQuoted (write : Char → List Char) : Prop :=
  ∀ c, Mode.quoted.after (write c) = .quoted ∧ marksFrom .quoted (write c) = []

/-- In quotes, a run of characters that are written in such a way stays there. -/
theorem StaysQuoted.flatMap {write : Char → List Char} (h : StaysQuoted write) (cs : List Char) :
    Mode.quoted.after (cs.flatMap write) = .quoted ∧ marksFrom .quoted (cs.flatMap write) = [] := by
  induction cs with
  | nil => exact ⟨rfl, rfl⟩
  | cons c cs ih =>
    obtain ⟨hafter, hmarks⟩ := h c
    rw [List.flatMap_cons, Mode.after_append, marksFrom_append, hafter, hmarks]
    exact ih

/-- **Between single quotes** such a run is mute. -/
theorem StaysQuoted.mute {write : Char → List Char} (h : StaysQuoted write) (cs : List Char) :
    Mute ('\'' :: cs.flatMap write ++ ['\'']) := by
  obtain ⟨hafter, hmarks⟩ := h.flatMap cs
  -- the first quote opens, so that the run is scanned in quotes, and the last one closes
  constructor
  · rw [List.cons_append, show Mode.outside.after ('\'' :: (cs.flatMap write ++ ['\''])) =
      Mode.quoted.after (cs.flatMap write ++ ['\'']) from rfl, Mode.after_append, hafter]
    rfl
  · rw [List.cons_append, show marksFrom .outside ('\'' :: (cs.flatMap write ++ ['\''])) =
      marksFrom .quoted (cs.flatMap write ++ ['\'']) from rfl, marksFrom_append, hafter, hmarks]
    rfl

/-- A character in quotes: only the quote is written in another way, and that comes back. -/
theorem staysQuoted_quotedChar : StaysQuoted quotedChar := by
  intro c
  unfold quotedChar
  by_cases hquote : c = '\''
  · rw [if_pos hquote]
    exact ⟨rfl, rfl⟩
  · have hafter : Mode.quoted.step c = .quoted := by rw [Mode.step, if_neg hquote]
    rw [if_neg hquote]
    exact ⟨hafter, rfl⟩

theorem staysQuoted_drawnChar : StaysQuoted drawnChar := by
  intro c
  unfold drawnChar
  by_cases hbackslash : c = '\\'
  · -- two backslashes are literal in quotes like anything else
    rw [if_pos hbackslash]
    exact ⟨rfl, rfl⟩
  · rw [if_neg hbackslash]
    exact staysQuoted_quotedChar c

/-- A text without special characters is mute as it is. -/
theorem mute_of_not_special {cs : List Char} (h : ∀ c ∈ cs, isSpecial c = false) : Mute cs := by
  have hplain : ∀ c ∈ cs, c ≠ '\'' ∧ c ≠ '\\' := by
    intro c hc
    have hspecial := h c hc
    constructor
    · rintro rfl
      exact absurd hspecial (by decide)
    · rintro rfl
      exact absurd hspecial (by decide)
  refine ⟨after_of_forall hplain, ?_⟩
  induction cs with
  | nil => rfl
  | cons c cs ih =>
    obtain ⟨hquote, hbackslash⟩ := hplain c List.mem_cons_self
    have hmark : isMark c = false := by
      have hspecial := h c List.mem_cons_self
      simp only [isSpecial, Bool.or_eq_false_iff] at hspecial
      simp only [isMark, hspecial, Bool.or_self]
    rw [marksFrom, if_neg (by simp [hmark]), Mode.step_outside hquote hbackslash]
    exact ih (fun d hd => h d (List.mem_cons_of_mem _ hd))
      fun d hd => hplain d (List.mem_cons_of_mem _ hd)

/-- **An option value is mute,** whatever text it is made of. -/
theorem mute_quote (s : String) : Mute (quote s).toList := by
  unfold quote quoteChars
  rw [String.toList_ofList]
  by_cases hspecial : s.toList.any isSpecial = true
  · rw [if_pos hspecial]
    exact staysQuoted_quotedChar.mute s.toList
  · rw [if_neg hspecial]
    apply mute_of_not_special
    rw [Bool.not_eq_true] at hspecial
    intro c hc
    simpa using List.any_eq_false.1 hspecial c hc

/-- The characters of a text to be drawn, with its quotes. -/
theorem toList_drawn (s : String) :
    ("'" ++ drawn s ++ "'").toList =
      '\'' :: (Text.strip (· == '"') s.toList).flatMap drawnChar ++ ['\''] := by
  rw [String.toList_append, String.toList_append, drawn]
  simp only [String.toList_ofList, List.singleton_append, String.reduceToList]

/-- **A text to be drawn is mute** between its quotes. -/
theorem mute_drawn (s : String) : Mute ("'" ++ drawn s ++ "'").toList := by
  rw [toList_drawn]
  exact staysQuoted_drawnChar.mute _

end ClipScript.Filter
