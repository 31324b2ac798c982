/-
# Reading a shell line

How a shell cuts a line into words. The reader goes over the line character by character
and knows where it is: outside quotes, behind a backslash there, in single quotes, in
double quotes, or behind a backslash in those. Outside quotes blanks end a word and a
backslash makes the next character literal; in single quotes everything is literal; in
double quotes a backslash escapes only the characters that have a meaning there. Quotes
begin a word even where nothing is between them, so that the empty word can be written.
There are no comments.

A line that is made of words (`shellLine`) is read back as these words, whatever characters
they have (`shellWords_shellLine`). The invariant is that after the text of a word the
reader is outside quotes and holds just that word (`run_shellWord`), however much of it
stood in quotes; the one space between two words then ends it.

The line that a compiled script is shown as therefore stands for the words that the encoder
is called with.
-/
import ClipScript.Proofs.Compilation.CommandLine
import ClipScript.Proofs.Failing
import ClipScript.Text.ShellWord

set_option autoImplicit false

namespace ClipScript.Text

/-! ## The reader -/

/-- Where a shell is in a line. -/
inductive ShellMode where
  | outside
  | escaped
  | single
  | double
  | doubleEscaped
deriving DecidableEq, Repr

/-- **A shell on its way through a line:** the words behind it, and the word that it is in,
if it is in one. -/
structure ShellReader where
  mode : ShellMode := .outside
  word : Option (List Char) := none
  words : List (List Char) := []
deriving DecidableEq, Repr

/-- The characters that end a word outside quotes. -/
def isShellBlank (c : Char) : Bool := c = ' ' || c = '\t' || c = '\n'

/-- The characters that a backslash escapes in double quotes. -/
def isDoubleSpecial (c : Char) : Bool := c = '$' || c = '\x60' || c = '"' || c = '\\'

namespace ShellReader

/-- In a word, which begins here if there is none yet, with more characters of it. -/
def push (r : ShellReader) (cs : List Char) : ShellReader :=
  { r with word := some (r.word.getD [] ++ cs) }

/-- Behind the word. -/
def endWord (r : ShellReader) : ShellReader :=
  { r with word := none, words := r.words ++ r.word.toList }

/-- Elsewhere, with the same words. -/
def goto (r : ShellReader) (mode : ShellMode) : ShellReader := { r with mode := mode }

/-- **One character.** A line feed behind a backslash joins two lines: it is left out. -/
def step (r : ShellReader) (c : Char) : ShellReader :=
  match r.mode with
  | .outside =>
    if isShellBlank c then r.endWord
    else if c = '\\' then r.goto .escaped
    else if c = '\'' then (r.push []).goto .single
    else if c = '"' then (r.push []).goto .double
    else r.push [c]
  | .escaped => (if c = '\n' then r else r.push [c]).goto .outside
  | .single => if c = '\'' then r.goto .outside else r.push [c]
  | .double =>
    if c = '\\' then r.goto .doubleEscaped
    else if c = '"' then r.goto .outside
    else r.push [c]
  | .doubleEscaped =>
    (if c = '\n' then r
      else if isDoubleSpecial c then r.push [c]
      else r.push ['\\', c]).goto .double

/-- Many characters. -/
def run (r : ShellReader) (cs : List Char) : ShellReader := cs.foldl step r

/-- The words of a line that is over, if it does not end in quotes or behind a backslash. -/
def finish? (r : ShellReader) : Option (List (List Char)) :=
  if r.mode = .outside then some r.endWord.words else none

theorem run_cons (r : ShellReader) (c : Char) (cs : List Char) :
    r.run (c :: cs) = (r.step c).run cs := rfl

theorem run_append (r : ShellReader) (cs ds : List Char) :
    r.run (cs ++ ds) = (r.run cs).run ds := List.foldl_append

@[simp] theorem push_nil (mode : ShellMode) (w : List Char) (words : List (List Char)) :
    push ⟨mode, some w, words⟩ [] = ⟨mode, some w, words⟩ := by
  simp only [push, Option.getD_some, List.append_nil]

@[simp] theorem push_some (mode : ShellMode) (w cs : List Char) (words : List (List Char)) :
    push ⟨mode, some w, words⟩ cs = ⟨mode, some (w ++ cs), words⟩ := rfl

end ShellReader

/-- **The words of a shell line.** -/
def shellWords (line : String) : Option (List String) :=
  (ShellReader.run {} line.toList).finish?.map (List.map String.ofList)

/-! ## One word -/

section Words

variable (words : List (List Char))

/-- A safe character has no meaning of its own. -/
theorem plain_of_isShellSafe {c : Char} (h : isShellSafe c = true) :
    isShellBlank c = false ∧ c ≠ '\\' ∧ c ≠ '\'' ∧ c ≠ '"' := by
  have hnone : ∀ d : Char, isShellSafe d = false → c ≠ d := by
    rintro d hd rfl
    rw [h] at hd
    cases hd
  refine ⟨?_, hnone _ (by decide), hnone _ (by decide), hnone _ (by decide)⟩
  simp only [isShellBlank, Bool.or_eq_false_iff, decide_eq_false_iff_not]
  exact ⟨⟨hnone _ (by decide), hnone _ (by decide)⟩, hnone _ (by decide)⟩

/-- A safe character outside quotes belongs to the word, which begins here if there is none yet. -/
theorem step_safe {c : Char} (h : isShellSafe c = true) (w : Option (List Char)) :
    ShellReader.step ⟨.outside, w, words⟩ c = ⟨.outside, some (w.getD [] ++ [c]), words⟩ := by
  obtain ⟨hblank, hbackslash, hsingle, hdouble⟩ := plain_of_isShellSafe h
  simp only [ShellReader.step, hblank, hbackslash, hsingle, hdouble, ShellReader.push,
    Bool.false_eq_true, if_false]

theorem run_safe {cs : List Char} (h : ∀ c ∈ cs, isShellSafe c = true) (w : List Char) :
    ShellReader.run ⟨.outside, some w, words⟩ cs = ⟨.outside, some (w ++ cs), words⟩ := by
  induction cs generalizing w with
  | nil => rw [List.append_nil]; rfl
  | cons c cs ih =>
    rw [ShellReader.run_cons, step_safe words (h c List.mem_cons_self), Option.getD_some,
      ih (fun d hd => h d (List.mem_cons_of_mem _ hd)), List.append_assoc, List.singleton_append]

/-- In single quotes, a character of a quoted word is read as itself: a single quote ends the
quotes, comes in double quotes of its own, and opens them again. -/
theorem run_shellChar (w : List Char) (c : Char) :
    ShellReader.run ⟨.single, some w, words⟩ (shellChar c) =
      ⟨.single, some (w ++ [c]), words⟩ := by
  unfold shellChar
  by_cases hquote : c = '\''
  · subst hquote
    simp [ShellReader.run, ShellReader.step, ShellReader.goto, isShellBlank]
  · simp [ShellReader.run, ShellReader.step, hquote]

theorem run_flatMap_shellChar (cs w : List Char) :
    ShellReader.run ⟨.single, some w, words⟩ (cs.flatMap shellChar) =
      ⟨.single, some (w ++ cs), words⟩ := by
  induction cs generalizing w with
  | nil => rw [List.append_nil]; rfl
  | cons c cs ih =>
    rw [List.flatMap_cons, ShellReader.run_append, run_shellChar, ih, List.append_assoc,
      List.singleton_append]

/-- **Behind the text of a word** a shell holds this word and is outside quotes. -/
theorem run_shellWord (w : List Char) :
    ShellReader.run ⟨.outside, none, words⟩ (shellWord w) = ⟨.outside, some w, words⟩ := by
  unfold shellWord
  by_cases hsafe : (!w.isEmpty && w.all isShellSafe) = true
  · rw [if_pos hsafe]
    obtain ⟨hne, hall⟩ := Bool.and_eq_true_iff.1 hsafe
    rcases w with _ | ⟨c, cs⟩
    · cases hne
    · have hchars : ∀ d ∈ c :: cs, isShellSafe d = true := List.all_eq_true.1 hall
      rw [ShellReader.run_cons, step_safe words (hchars c List.mem_cons_self), Option.getD_none,
        List.nil_append, run_safe words fun d hd => hchars d (List.mem_cons_of_mem _ hd)]
      rfl
  · rw [if_neg hsafe, List.cons_append, ShellReader.run_cons, ShellReader.run_append]
    have hopen : ShellReader.step ⟨.outside, none, words⟩ '\'' = ⟨.single, some [], words⟩ := rfl
    rw [hopen, run_flatMap_shellChar, List.nil_append]
    rfl

/-! ## All words -/

/-- The space between two words ends the first one. -/
theorem step_space (w : List Char) :
    ShellReader.step ⟨.outside, some w, words⟩ ' ' = ⟨.outside, none, words ++ [w]⟩ := rfl

/-- **Behind a line** a shell has all its words. -/
theorem run_shellLine (ws : List String) :
    (ShellReader.run ⟨.outside, none, words⟩ (shellLine ws).toList).finish? =
      some (words ++ ws.map String.toList) := by
  unfold shellLine
  induction ws generalizing words with
  | nil =>
    rw [List.map_nil, List.map_nil, String.intercalate_nil]
    rfl
  | cons w ws ih =>
    by_cases hws : ws = []
    · subst hws
      simp only [List.map_cons, List.map_nil, String.intercalate_singleton, String.toList_ofList]
      rw [run_shellWord]
      rfl
    · have hne : ws.map (fun w => String.ofList (shellWord w.toList)) ≠ [] := by
        simpa using hws
      rw [List.map_cons, String.intercalate_cons_of_ne_nil hne, String.toList_append,
        String.toList_append, String.toList_ofList, List.append_assoc, ShellReader.run_append,
        ShellReader.run_append, run_shellWord]
      rw [show " ".toList = [' '] from rfl, ShellReader.run_cons, step_space]
      rw [show ∀ r : ShellReader, r.run [] = r from fun _ => rfl, ih, List.map_cons,
        List.append_assoc, List.singleton_append]

end Words

/-- **A line is read as the words that it was made of.** -/
theorem shellWords_shellLine (ws : List String) : shellWords (shellLine ws) = some ws := by
  have hid : (String.ofList ∘ String.toList : String → String) = id :=
    funext fun _ => String.ofList_toList
  rw [shellWords, show ({} : ShellReader) = ⟨.outside, none, []⟩ from rfl, run_shellLine,
    Option.map_some, List.nil_append, List.map_map, hid, List.map_id]

/-- The apostrophe in a word, an empty word and a safe word, side by side. -/
example : shellLine ["it's", "", "a=1"] = "'it'\"'\"'s' '' a=1" := by decide +kernel

end ClipScript.Text

namespace ClipScript

/-! ## The line of a compiled script -/

variable {descriptor : Option Descriptor} {settings : Settings}

/-- The line is made of the program and the words of its command line. -/
theorem command_of_finish {draft : Draft} {source output : String} {run : Filter.Run}
    {c : Compilation} (h : draft.finish settings source output run = .ok c) :
    c.command = Text.shellLine ("ffmpeg" :: c.args) := by
  rw [Draft.finish] at h
  obtain ⟨arguments, -, h⟩ := bind_eq_ok.1 h
  obtain ⟨args, -, h⟩ := bind_eq_ok.1 h
  obtain rfl := Except.ok.inj h
  rfl

/-- **The line that a script is shown as** is read by a shell as the program and the words that it
is called with. -/
theorem shellWords_command {text : String} {c : Compilation}
    (h : compile text descriptor settings = .ok c) :
    Text.shellWords c.command = some ("ffmpeg" :: c.args) := by
  obtain ⟨s, -, hdraft⟩ := compile_ok h
  obtain ⟨_, _, _, _, -, -, -, -, hfinish⟩ := compile_draft_stages hdraft
  rw [command_of_finish hfinish, Text.shellWords_shellLine]

/-- A script whose texts have quotes, blanks and a backslash, which the filter graph escapes before
the shell line quotes them again. -/
def quotedTexts : String :=
  "input \"my clip's $1.mp4\"\nadd_text \"it's \\ 5 > 4\" at center\n" ++
    "burn subtitles \"a b'c.srt\" at top"

theorem shellWords_command_quotedTexts :
    ∃ c, compile quotedTexts none { output := .text "two\nlines\".mp4" } = .ok c ∧
      c.args = ["-i", "my clip's $1.mp4", "-vf",
        "drawtext=text='it'\\''s \\\\ 5 > 4':fontsize=24:fontcolor=white:x=(w-text_w)/2:" ++
          "y=(h-text_h)/2,subtitles='a b'\\''c.srt':force_style='Alignment=8'",
        "two\nlines\".mp4"] ∧
      Text.shellWords c.command = some ("ffmpeg" :: c.args) := by
  have hargs : (compile quotedTexts none { output := .text "two\nlines\".mp4" }).toOption.map
      Compilation.args = some ["-i", "my clip's $1.mp4", "-vf",
        "drawtext=text='it'\\''s \\\\ 5 > 4':fontsize=24:fontcolor=white:x=(w-text_w)/2:" ++
          "y=(h-text_h)/2,subtitles='a b'\\''c.srt':force_style='Alignment=8'",
        "two\nlines\".mp4"] := by
    decide +kernel
  rcases hc : compile quotedTexts none { output := .text "two\nlines\".mp4" } with f | c
  · rw [hc] at hargs
    cases hargs
  · rw [hc] at hargs
    exact ⟨c, rfl, Option.some.inj hargs, shellWords_command hc⟩

end ClipScript
