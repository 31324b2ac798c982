/-
# Reading command lines and sessions

This file is about the two ends of a command: the words that it is asked for with, and what
its session says.

A word without a dash in front is taken for what it is, whatever the grammar. One with a
dash depends on the grammar: it is taken for what it is as well if no option can be meant by
it and it is a negative number or has a blank in it (`Grammar.Inline`). So a script after
`-e` is the script of the command exactly if it is such a word for the grammar of the command
(`read_inline`), and else the command line is refused (`read_not_inline`). The program itself
takes the name of a command and leaves all words behind it to this grammar (`read_command`).

What a session says is read off its events. Log entries are apart from the rest, since it
depends on more than the command whether they appear.
-/
import ClipScript.CommandLine.Run

set_option autoImplicit false

namespace ClipScript.CommandLine

/-! ## Words that are taken for what they are -/

/-- A word that begins with no dash. -/
def Dashless (w : String) : Prop := w.toList.head? ≠ some '-'

instance (w : String) : Decidable (Dashless w) := inferInstanceAs (Decidable (_ ≠ _))

/-- **A word that can mean an option:** it is the name of one, or has the name of one before an
equals sign, or is a name cut short or joined to something. -/
def Grammar.Means (g : Grammar) (w : String) : Prop :=
  g.named? w ≠ none ∨ ((splitEquals w).2 ≠ none ∧ g.named? (splitEquals w).1 ≠ none) ∨
    g.candidates w ≠ []

/-- **A word that is taken for what it is:** it begins with no dash, or is nothing but a dash, or
can mean no option and is a negative number or has a blank in it. -/
def Grammar.Inline (g : Grammar) (w : String) : Prop :=
  Dashless w ∨ w = "-" ∨ ¬ g.Means w ∧ (isNegativeNumber w = true ∨ ' ' ∈ w.toList)

instance (g : Grammar) (w : String) : Decidable (g.Means w) :=
  inferInstanceAs (Decidable (_ ∨ _))

instance (g : Grammar) (w : String) : Decidable (g.Inline w) :=
  inferInstanceAs (Decidable (_ ∨ _))

variable {g : Grammar} {w : String}

/-- Two characters of which the first is a dash make a word that is neither without a dash nor
nothing but one. -/
theorem inline_iff_of_dash {c : Char} {cs : List Char} (hw : w.toList = '-' :: c :: cs) :
    g.Inline w ↔ ¬ g.Means w ∧ (isNegativeNumber w = true ∨ ' ' ∈ w.toList) := by
  have hdash : ¬ Dashless w := by simp [Dashless, hw]
  have hsingle : w ≠ "-" := by
    rintro rfl
    cases hw
  rw [Grammar.Inline, or_iff_right hdash, or_iff_right hsingle]

/-- **The class of a word** is plain exactly if it is taken for what it is. -/
theorem classify_eq_plain_iff : g.classify w = .ok .plain ↔ g.Inline w := by
  rw [Grammar.classify]
  split
  · next c cs hw =>
    rw [inline_iff_of_dash hw, Grammar.Means]
    rcases splitEquals w with ⟨name, value⟩
    split
    · next o hnamed => simp [hnamed]
    · next hnamed =>
      dsimp only
      split
      · next v o hname => simp [hname]
      · next value _ _ hprefix =>
        have hnone : ¬ (value ≠ none ∧ g.named? name ≠ none) := by
          rintro ⟨hvalue, hname⟩
          obtain ⟨v, rfl⟩ := Option.ne_none_iff_exists'.1 hvalue
          obtain ⟨o, ho⟩ := Option.ne_none_iff_exists'.1 hname
          exact hprefix v o rfl ho
        split
        · next hcandidates =>
          rw [and_iff_right]
          · by_cases hplain : (isNegativeNumber w || w.toList.contains ' ') = true
            · rw [if_pos hplain]
              exact iff_of_true rfl (by simpa using hplain)
            · rw [if_neg hplain]
              exact iff_of_false nofun (by simpa using hplain)
          · rintro (hname | hprefix' | hsome)
            · exact hname hnamed
            · exact hnone hprefix'
            · exact hsome hcandidates
        · next hcandidates => simp [hcandidates]
        · next hnil _ => exact iff_of_false nofun fun h => h.1 (.inr (.inr hnil))
  · next hshort =>
    refine iff_of_true rfl ?_
    -- a text of at most one character, or with another one in front
    rcases hw : w.toList with _ | ⟨c, _ | ⟨d, cs⟩⟩
    · exact .inl (by simp [Dashless, hw])
    · by_cases hdash : c = '-'
      · exact .inr (.inl (String.ext (by rw [hw, hdash]; rfl)))
      · exact .inl (by simp [Dashless, hw, hdash])
    · exact .inl (by
        rw [Dashless, hw]
        rintro ⟨⟩
        exact hshort d cs hw)

/-! A word is taken for what it is by a grammar with fewer options as well. -/

theorem named?_ne_none_iff : g.named? w ≠ none ↔ ∃ o, (w, o) ∈ g.names := by
  rw [Grammar.named?, ne_eq, Option.map_eq_none_iff, List.find?_eq_none]
  simp

theorem candidates_subset {g' : Grammar} (hnames : g.names ⊆ g'.names) :
    g.candidates w ⊆ g'.candidates w := by
  rw [Grammar.candidates, Grammar.candidates]
  split
  · exact List.map_subset _ (List.filter_subset _ hnames)
  · exact List.filterMap_subset _ hnames
  · exact List.Subset.refl _

theorem Grammar.Means.mono {g' : Grammar} (hnames : g.names ⊆ g'.names) (h : g.Means w) :
    g'.Means w := by
  have hnamed {name : String} (h : g.named? name ≠ none) : g'.named? name ≠ none := by
    obtain ⟨o, ho⟩ := named?_ne_none_iff.1 h
    exact named?_ne_none_iff.2 ⟨o, hnames ho⟩
  refine h.imp hnamed (.imp (.imp_right hnamed) fun hsome hnil => hsome ?_)
  exact List.subset_nil.1 (hnil ▸ candidates_subset hnames)

theorem Grammar.Inline.anti {g' : Grammar} (hnames : g.names ⊆ g'.names) (h : g'.Inline w) :
    g.Inline w :=
  h.imp_right (.imp_right (.imp_left fun hmeans => mt (.mono hnames) hmeans))

theorem Grammar.Inline.ne_separator (h : g.Inline w) : w ≠ "--" := by
  rintro rfl
  rcases h with h | h | ⟨-, h⟩
  all_goals exact absurd h (by decide)

/-- **Only a word that can mean several options** cannot be sorted. -/
theorem exists_of_classify_error {e : Stop} (h : g.classify w = .error e) :
    (∃ message, e = .error message) ∧ (∃ c cs, w.toList = '-' :: c :: cs) ∧
      2 ≤ (g.candidates w).length := by
  rw [Grammar.classify] at h
  rcases splitEquals w with ⟨name, value⟩
  split at h
  · next c cs hw =>
    split at h
    · cases h
    · dsimp only at h
      split at h
      · cases h
      · split at h
        · split at h <;> cases h
        · cases h
        · next several hnil hsingle =>
          refine ⟨⟨_, (Except.error.inj h).symm⟩, ⟨c, cs, hw⟩, ?_⟩
          rcases hseveral : g.candidates w with _ | ⟨x, _ | ⟨y, rest⟩⟩
          · exact absurd hseveral hnil
          · exact absurd hseveral (hsingle x.1 x.2.1 x.2.2)
          · simp
  · cases h

/-- Words that cannot be sorted are an error, and no call for help. -/
theorem exists_of_sort_error {ws : List String} {e : Stop} (h : g.sort ws = .error e) :
    ∃ message, e = .error message := by
  induction ws with
  | nil => cases h
  | cons w ws ih =>
    rw [Grammar.sort] at h
    split at h
    · cases h
    · rcases hclass : g.classify w with e' | c
      · rw [hclass] at h
        cases h
        exact (exists_of_classify_error hclass).1
      · rcases hrest : g.sort ws with e' | rest
        · rw [hclass, hrest] at h
          cases h
          exact ih hrest
        · rw [hclass, hrest] at h
          cases h

/-- A word that is taken for what it is, is sorted as a plain one. -/
theorem sort_inline (h : g.Inline w) (ws : List String) :
    g.sort (w :: ws) = (g.sort ws).map fun items => (w, .plain) :: items := by
  rw [Grammar.sort, if_neg h.ne_separator, classify_eq_plain_iff.2 h]
  cases g.sort ws <;> rfl

/-- Any other word is sorted as something else. -/
theorem exists_of_sort_not_inline (h : ¬ g.Inline w) {items : List Item}
    (hsort : g.sort [w] = .ok items) : ∃ c, c ≠ .plain ∧ items = [(w, c)] := by
  rw [Grammar.sort] at hsort
  split at hsort
  · exact ⟨.separator, nofun, (Except.ok.inj hsort).symm⟩
  · rcases hclass : g.classify w with e | c
    · rw [hclass] at hsort
      cases hsort
    · rw [hclass] at hsort
      refine ⟨c, ?_, (Except.ok.inj hsort).symm⟩
      rintro rfl
      exact h (classify_eq_plain_iff.1 hclass)

/-- Sorting keeps the words. -/
theorem map_fst_of_sort {ws : List String} {items : List Item} (h : g.sort ws = .ok items) :
    items.map Prod.fst = ws := by
  induction ws generalizing items with
  | nil =>
    obtain rfl := Except.ok.inj h
    rfl
  | cons w ws ih =>
    rw [Grammar.sort] at h
    split at h
    · obtain rfl := Except.ok.inj h
      rw [List.map_cons, List.map_map]
      exact congrArg (w :: ·) (List.map_id ws)
    · rcases hclass : g.classify w with e | c
      · rw [hclass] at h
        cases h
      · rcases hrest : g.sort ws with e | rest
        · rw [hclass, hrest] at h
          cases h
        · rw [hclass, hrest] at h
          obtain rfl := Except.ok.inj h
          rw [List.map_cons, ih hrest]

/-! ## Commands -/

/-- **A command takes all words behind its name.** -/
theorem read_command {command : String} (hcommand : command ∈ commandNames) {ws : List String}
    {items : List Item} (hsort : programGrammar.sort ws = .ok items) :
    programGrammar.read (command :: ws) = .ok { positional := some (command :: ws) } := by
  have hdashless : Dashless command := by
    revert command
    decide
  have htake : programGrammar.takePositional ((command, .plain) :: items) {} =
      .ok ({ positional := some (command :: ws) }, items.length + 1) := by
    have hspan : (Positional.command "command" commandNames).span ((command, .plain) :: items) =
        some (items.length + 1) := rfl
    have hwords : (Positional.command "command" commandNames).words (command :: ws) =
        .ok (command :: ws) := by
      rw [Positional.words]
      simp [hcommand]
    simp only [Grammar.takePositional, programGrammar, grammarOf, hspan]
    rw [List.take_of_length_le (by simp), List.map_cons, map_fst_of_sort hsort, hwords]
    rfl
  have hend : programGrammar.takeWords [] { positional := some (command :: ws) } =
      .ok { positional := some (command :: ws) } := by
    rw [Grammar.takeWords]
    rfl
  rw [Grammar.read, sort_inline (.inl hdashless), hsort]
  simp only [Except.map, bind, Except.bind]
  rw [Grammar.takeWords, htake]
  simp only [isOption, bind, Except.bind]
  rw [if_neg (by decide), if_neg (Nat.succ_ne_zero _), List.drop_of_length_le (by simp), hend]
  rfl

/-- What `compile` is asked for with nothing but a script. -/
def CompileRequest.ofScript (text : String) : CompileRequest where
  source := ⟨some text, none⟩
  manifest := none
  input := none
  output := none
  resolution := none
  duration := none
  probe := false
  overwrite := false
  json := false

/-- Words that cannot be sorted stop the program, whatever its command. -/
theorem read_command_error {command : String} (hcommand : command ∈ commandNames) {ws : List String}
    {e : Stop} (hsort : programGrammar.sort ws = .error e) :
    programGrammar.read (command :: ws) = .error e := by
  have hdashless : Dashless command := by
    revert command
    decide
  rw [Grammar.read, sort_inline (.inl hdashless), hsort]
  rfl

/-! ## Scripts in the command line -/

/-- **A grammar with scripts:** it has help, scripts after `-e`, and perhaps a file. -/
structure Grammar.TakesScript (g : Grammar) : Prop where
  help : ("--help", helpOption) ∈ g.names
  expr : g.named? "-e" = some exprOption
  positional : g.positional = some .optional

theorem takesScript_check : checkGrammar.TakesScript := ⟨by decide, rfl, rfl⟩

theorem takesScript_compile : compileGrammar.TakesScript := ⟨by decide, rfl, rfl⟩

theorem Grammar.TakesScript.classify_expr (hg : g.TakesScript) :
    g.classify "-e" = .ok (.option exprOption "-e" none) := by
  simp [Grammar.classify, hg.expr]

/-- A script after `-e` is sorted on its own. -/
theorem sort_expr (hg : g.TakesScript) (w : String) :
    g.sort ["-e", w] =
      (g.sort [w]).map fun items => ("-e", .option exprOption "-e" none) :: items := by
  rw [Grammar.sort, if_neg (by decide), hg.classify_expr]
  cases g.sort [w] <;> rfl

/-- **A script after `-e`** is the script of a command that knows this option. -/
theorem read_expr (hg : g.TakesScript) (h : g.Inline w) :
    g.read ["-e", w] = .ok { options := [("--expr", w)], positional := some [] } := by
  have hsort : g.sort ["-e", w] = .ok [("-e", .option exprOption "-e" none), (w, .plain)] := by
    rw [sort_expr hg, sort_inline h]
    rfl
  have hoption : g.takeOption ("-e", .option exprOption "-e" none) [(w, .plain)] {} =
      .ok ({ options := [("--expr", w)] }, 1) := rfl
  have hend : g.takeWords [] { options := [("--expr", w)] } =
      .ok { options := [("--expr", w)], positional := some [] } := by
    rw [Grammar.takeWords, Grammar.takePositional]
    simp only [hg.positional]
    rfl
  rw [Grammar.read, hsort]
  simp only [bind, Except.bind]
  rw [Grammar.takeWords, hoption]
  simp only [isOption, bind, Except.bind, if_true, List.drop_one, List.tail_cons]
  rw [hend, hg.positional]
  rfl

/-- **Any other word after `-e`** is refused: it cannot be sorted, or the option has no script. -/
theorem read_expr_error (hg : g.TakesScript) (h : ¬ g.Inline w) :
    ∃ message, g.read ["-e", w] = .error (.error message) := by
  rcases hsort : g.sort [w] with e | items
  · obtain ⟨message, rfl⟩ := exists_of_sort_error hsort
    exact ⟨message, by rw [Grammar.read, sort_expr hg, hsort]; rfl⟩
  · obtain ⟨c, hc, rfl⟩ := exists_of_sort_not_inline h hsort
    have hoption : g.takeOption ("-e", .option exprOption "-e" none) [(w, c)] {} =
        complain exprOption.title "expected one argument" := by
      cases c with
      | plain => exact absurd rfl hc
      | _ => rfl
    refine ⟨"argument " ++ exprOption.title ++ ": " ++ "expected one argument", ?_⟩
    rw [Grammar.read, sort_expr hg, hsort]
    simp only [Except.map, bind, Except.bind]
    rw [Grammar.takeWords, hoption]
    rfl

/-- What a word with two dashes could be cut short from. -/
theorem candidates_of_dashes {cs : List Char} (hw : w.toList = '-' :: '-' :: cs) :
    g.candidates w =
      (g.names.filter fun n => ('-' :: '-' :: cs.takeWhile (· != '=')).isPrefixOf n.1.toList).map
        fun n => (n.2, n.1, (splitEquals w).2.map (⟨true, ·⟩)) := by
  have hstart : (splitEquals w).1.toList = '-' :: '-' :: cs.takeWhile (· != '=') := by
    rw [splitEquals, hw]
    split <;> simp
  rw [Grammar.candidates, hw, ← hstart]
  rfl

/-- What a word with one dash could stand for: a short name with something joined to it. -/
theorem candidates_of_letter {c : Char} {cs : List Char} (hw : w.toList = '-' :: c :: cs)
    (hdash : c ≠ '-') :
    g.candidates w = g.names.filterMap fun n =>
      if n.1 = String.ofList ['-', c] then some (n.2, n.1, some ⟨false, String.ofList cs⟩)
      else if ('-' :: c :: cs).isPrefixOf n.1.toList then some (n.2, n.1, none)
      else none := by
  rw [Grammar.candidates, hw]
  split
  · next hdashes => exact absurd (List.cons.inj (List.cons.inj hdashes).2).1 hdash
  · next hletter =>
    obtain ⟨rfl, rfl⟩ := List.cons.inj (List.cons.inj hletter).2
    rfl
  · next hother => exact absurd rfl (hother c cs)

theorem names_programGrammar :
    programGrammar.names = [("-h", helpOption), ("--help", helpOption),
      ("--verbose", ⟨["--verbose", "-v"], .flag⟩), ("-v", ⟨["--verbose", "-v"], .flag⟩)] :=
  rfl

/-- No letter is the short name of two options of the program. -/
theorem length_candidates_of_letter {c : Char} {cs : List Char} (hw : w.toList = '-' :: c :: cs)
    (hdash : c ≠ '-') : (programGrammar.candidates w).length ≤ 1 := by
  rw [candidates_of_letter hw hdash, names_programGrammar]
  by_cases hh : c = 'h'
  · subst hh
    simp
  · by_cases hv : c = 'v'
    · subst hv
      simp
    · simp [← String.toList_inj, hh, hv, hdash, Ne.symm hh, Ne.symm hv, hdash.symm]

/-- **What could mean several options of the program** could mean the help of a command, and is not
taken for what it is. -/
theorem not_inline_of_classify_error (hhelp : ("--help", helpOption) ∈ g.names) {e : Stop}
    (h : programGrammar.classify w = .error e) : ¬ g.Inline w := by
  obtain ⟨-, ⟨c, cs, hw⟩, hmany⟩ := exists_of_classify_error h
  rw [inline_iff_of_dash hw]
  rintro ⟨hmeans, -⟩
  by_cases hdash : c = '-'
  · subst hdash
    have hnohelp : ('-' :: '-' :: cs.takeWhile (· != '=')).isPrefixOf "--help".toList = false := by
      refine Bool.eq_false_iff.2 fun hprefix => hmeans (.inr (.inr ?_))
      rw [candidates_of_dashes hw]
      exact List.ne_nil_of_mem (List.mem_map_of_mem (List.mem_filter.2 ⟨hhelp, hprefix⟩))
    have hshort (n : String) (hn : n = "-h" ∨ n = "-v") :
        ('-' :: '-' :: cs.takeWhile (· != '=')).isPrefixOf n.toList = false := by
      rcases hn with rfl | rfl <;> rfl
    -- without help, one long name is left
    rw [candidates_of_dashes hw, names_programGrammar] at hmany
    simp only [List.filter_cons, hnohelp, hshort _ (.inl rfl), hshort _ (.inr rfl),
      Bool.false_eq_true, if_false, List.filter_nil, List.length_map] at hmany
    split at hmany <;> exact absurd hmany (by simp)
  · exact absurd hmany (Nat.not_le.2 (Nat.lt_succ_of_le (length_candidates_of_letter hw hdash)))

/-- What the program makes of `-e`, which is not one of its options, and a script. -/
theorem exists_sort_expr (hg : g.TakesScript) (h : g.Inline w) :
    ∃ items, programGrammar.sort ["-e", w] = .ok items := by
  have hexpr : programGrammar.classify "-e" = .ok .unknown := rfl
  rcases hclass : programGrammar.classify w with e | c
  · exact absurd h (not_inline_of_classify_error hg.help hclass)
  · refine ⟨[("-e", .unknown), (w, c)], ?_⟩
    rw [Grammar.sort, if_neg (by decide), hexpr, Grammar.sort, if_neg h.ne_separator, hclass]
    rfl

section

variable {command : String} (hcommand : command ∈ commandNames)
  (hgrammar : grammar? command = some g) (hg : g.TakesScript)

include hcommand hgrammar hg

/-- **A command with a script after `-e`** is asked for with nothing else. -/
theorem read_inline (h : g.Inline w) :
    read [command, "-e", w] = .asked false
      (some (requestOf command { options := [("--expr", w)], positional := some [] })) := by
  obtain ⟨items, hsort⟩ := exists_sort_expr hg h
  rw [read, read_command hcommand hsort]
  simp only [hgrammar, read_expr hg h]
  rfl

/-- **A command with anything else after `-e`** is refused: either the program cannot sort the word,
or the command does not take it for a script. -/
theorem read_not_inline (h : ¬ g.Inline w) : ∃ text, read [command, "-e", w] = .refused text := by
  rcases hsort : programGrammar.sort ["-e", w] with e | items
  · obtain ⟨message, rfl⟩ := exists_of_sort_error hsort
    refine ⟨programGrammar.usage ++ programGrammar.program ++ ": error: " ++ message ++ "\n", ?_⟩
    rw [read, read_command_error hcommand hsort]
    rfl
  · obtain ⟨message, hread⟩ := read_expr_error hg h
    refine ⟨g.usage ++ g.program ++ ": error: " ++ message ++ "\n", ?_⟩
    rw [read, read_command hcommand hsort]
    simp only [hgrammar, hread]
    rfl

end

/-- **Checking a script** that is given in the command line. -/
theorem read_check (h : checkGrammar.Inline w) :
    read ["check", "-e", w] = .asked false (some (.check ⟨some w, none⟩)) :=
  read_inline (by decide) rfl takesScript_check h

/-- **Compiling a script** that is given in the command line, with nothing else. -/
theorem read_compile (h : compileGrammar.Inline w) :
    read ["compile", "-e", w] = .asked false (some (.compile (.ofScript w))) :=
  read_inline (by decide) rfl takesScript_compile h

/-- A script that compiling takes from the command line, checking takes as well. -/
theorem inline_check_of_compile (h : compileGrammar.Inline w) : checkGrammar.Inline w := by
  have hnames : ∀ n ∈ checkGrammar.names, n ∈ compileGrammar.names := by decide
  exact h.anti fun n hn => hnames n hn

-- the converse fails for a script that means an option of compiling only
example : checkGrammar.Inline "-i x" ∧ ¬ compileGrammar.Inline "-i x" := by decide

example : compileGrammar.Inline "- foo" ∧ compileGrammar.Inline "-5" := by decide

/-- **Probing a file.** -/
theorem read_probe (h : Dashless w) : read ["probe", w] = .asked false (some (.probe w)) := by
  have hsort (g : Grammar) : g.sort [w] = .ok [(w, .plain)] := sort_inline (.inl h) []
  have hvideo : probeGrammar.read [w] = .ok { positional := some [w] } := by
    have htake : probeGrammar.takePositional [(w, .plain)] {} =
        .ok ({ positional := some [w] }, 1) := by
      have herase : [w].erase "--" = [w] := List.erase_of_not_mem (by
        simpa using (Grammar.Inline.ne_separator (.inl h : probeGrammar.Inline w)).symm)
      have hwords : (Positional.one "video").words [w] = .ok [w] := congrArg Except.ok herase
      have hspan : (Positional.one "video").span [(w, .plain)] = some 1 := rfl
      simp only [Grammar.takePositional, probeGrammar, grammarOf, hspan]
      rw [List.take_succ_cons, List.take_zero, List.map_cons, List.map_nil, hwords]
      rfl
    have hend : probeGrammar.takeWords [] { positional := some [w] } =
        .ok { positional := some [w] } := by
      rw [Grammar.takeWords]
      rfl
    rw [Grammar.read, hsort]
    simp only [bind, Except.bind]
    rw [Grammar.takeWords, htake]
    simp only [isOption, bind, Except.bind]
    rw [if_neg (by decide), if_neg (by decide), List.drop_zero, hend]
    rfl
  rw [read, read_command (by decide) (hsort _)]
  simp only [show grammar? "probe" = some probeGrammar from rfl, hvideo]
  rfl

/-- **Compiling a script** goes on from what was prepared for it. -/
theorem runCompile_of_prepare {m : Type → Type} [Monad m] [LawfulMonad m] {host : Host m}
    {verbose : Bool} {r : CompileRequest} {manifest : Manifest} {script : Json}
    {descriptor : Option Descriptor}
    (hprepare : (prepare r host).run = pure (.ok (manifest, script, descriptor))) :
    runCompile verbose r host =
      ofExcept (compilePrepared verbose r.json host.reportDepth host.prober manifest script
        descriptor) := by
  rw [runCompile, hprepare]
  simp

/-! ## What a session says -/

/-- **The complaints of a session:** what it says on standard error beside its log. -/
def Session.complaints (s : Session) : List String :=
  s.events.filterMap fun
    | .complaint text => some text
    | _ => none

section

variable {status : Nat} {verbose : Bool}

theorem complaints_log (entries : List Log.Entry) (events : List Event) :
    (Session.mk status verbose (entries.map .log ++ events)).complaints =
      (Session.mk status verbose events).complaints := by
  rw [Session.complaints, Session.complaints, List.filterMap_append, List.filterMap_map]
  simp

theorem complaints_output (outputs : List String) (events : List Event) :
    (Session.mk status verbose (outputs.map .output ++ events)).complaints =
      (Session.mk status verbose events).complaints := by
  rw [Session.complaints, Session.complaints, List.filterMap_append, List.filterMap_map]
  simp

theorem complaints_complaint (complaints : List String) (events : List Event) :
    (Session.mk status verbose (complaints.map .complaint ++ events)).complaints =
      complaints ++ (Session.mk status verbose events).complaints := by
  rw [Session.complaints, Session.complaints, List.filterMap_append, List.filterMap_map]
  exact congrArg (· ++ _) List.filterMap_some

end

end ClipScript.CommandLine
