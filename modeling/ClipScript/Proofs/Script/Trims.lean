/-
# Scripts of one trim

What a script `trim from s to e` comes to, for any two bare words `s` and `e` without a point:
the one command, exactly if both words are times in whole seconds and the second is later
(`parse_trim_iff`), and otherwise one diagnostic that says which of the three does not hold
(`TrimFault`).

The words stand where the pattern takes anything in one line, so the slots let all of them
through (`match_trim`) and only the condition decides (`validateTrim_cases`). A directive that
is refused by its condition fails at its last token, so it goes on to the end of the script,
whatever the words are; a keyword among them starts no other directive.
-/
import ClipScript.Proofs.Directives.Times
import ClipScript.Proofs.Script.Layouts

set_option autoImplicit false

namespace ClipScript

/-! ## Bare words -/

/-- **A bare word** without a point, whose numerals can be read. -/
structure BareWord (s : String) : Prop where
  nonempty : s.toList ≠ []
  chars : s.toList.all (fun c => !isSeparating c && c != '"' && c != '#') = true
  point : '.' ∉ s.toList
  short : ShortNumerals s.toList

namespace BareWord

variable {s : String}

theorem not_mem (h : BareWord s) {c : Char} (hc : isSeparating c = true ∨ c = '#') :
    c ∉ s.toList := by
  intro hmem
  have hchar := List.all_eq_true.1 h.chars c hmem
  simp only [Bool.and_eq_true, Bool.not_eq_true', bne_iff_ne] at hchar
  rcases hc with hseparating | rfl
  · rw [hchar.1.1] at hseparating
    cases hseparating
  · exact hchar.2 rfl

theorem line (h : BareWord s) : '\n' ∉ s.toList := h.not_mem (.inl (by decide))

theorem item (h : BareWord s) : IsItem s.toList := .word h.nonempty h.chars

theorem accepts_line (h : BareWord s) : Shape.line.accepts s = true :=
  Shape.accepts_line.2 ⟨h.nonempty, h.line⟩

/-- A bare word is a valid time exactly if it is a time in whole seconds. -/
theorem isValidTime_eq (h : BareWord s) :
    (∃ n, IsTime s n ∧ isValidTime s = .ok true ∧ secondsOf s = .ok (.finite n)) ∨
      (¬ ∃ n, IsTime s n) ∧ isValidTime s = .ok false := by
  have hshort : ∀ k, ¬ LongTime s k := fun k hk => hk.not_short h.short
  obtain ⟨valid, hvalid⟩ := (isValidTime_failsFor h.line).ok_of_not hshort
  cases valid with
  | true =>
    obtain ⟨n, hn⟩ := exists_isTime h.line h.point hvalid
    exact .inl ⟨n, hn, hn.read h.line hshort⟩
  | false =>
    refine .inr ⟨?_, hvalid⟩
    rintro ⟨n, hn⟩
    rw [(hn.read h.line hshort).1] at hvalid
    cases hvalid

/-- A bare word stands for one time at most. -/
theorem isTime_unique (h : BareWord s) {m n : Nat} (hm : IsTime s m) (hn : IsTime s n) : m = n := by
  have hshort : ∀ k, ¬ LongTime s k := fun k hk => hk.not_short h.short
  have heq := (hm.read h.line hshort).2.symm.trans (hn.read h.line hshort).2
  simpa using heq

end BareWord

/-! ## The condition -/

variable {s e : String}

/-- **Two times,** the second later than the first. -/
def Precedes (s e : String) : Prop := ∃ a b, IsTime s a ∧ IsTime e b ∧ a < b

/-- **What is wrong with two words** that are not two times in order: the first is no time, or only
the second is none, or it is not later. -/
inductive TrimFault (s e : String) : String → Prop where
  | start (no_time : ¬ ∃ n, IsTime s n) : TrimFault s e ("Invalid time " ++ Text.literal s)
  | stop {a : Nat} (time : IsTime s a) (no_time : ¬ ∃ n, IsTime e n) :
    TrimFault s e ("Invalid time " ++ Text.literal e)
  | order {a b : Nat} (time : IsTime s a) (time' : IsTime e b) (le : b ≤ a) :
    TrimFault s e ("End time " ++ e ++ " must be after start time " ++ s)

theorem TrimFault.not_precedes (hs : BareWord s) (he : BareWord e) {detail : String}
    (h : TrimFault s e detail) : ¬ Precedes s e := by
  rintro ⟨a, b, ha, hb, hlt⟩
  cases h with
  | start no_time => exact no_time ⟨a, ha⟩
  | stop _ no_time => exact no_time ⟨b, hb⟩
  | order time time' le =>
    obtain rfl := hs.isTime_unique time ha
    obtain rfl := he.isTime_unique time' hb
    omega

/-- **The condition of a trim** accepts two times in order, and says what is wrong otherwise. -/
theorem validateTrim_cases (hs : BareWord s) (he : BareWord e) :
    Precedes s e ∧ validateTrim [("start", some s), ("end", some e)] = .ok .accepted ∨
      ∃ detail, TrimFault s e detail ∧
        validateTrim [("start", some s), ("end", some e)] = .ok (.refused (some detail)) := by
  have hstart : Bindings.text [("start", some s), ("end", some e)] "start" = .ok s := rfl
  have hstop : Bindings.text [("start", some s), ("end", some e)] "end" = .ok e := rfl
  rw [validateTrim, hstart, hstop]
  simp only [bind, Except.bind]
  rcases hs.isValidTime_eq with ⟨a, ha, hvalid, hseconds⟩ | ⟨hno, hvalid⟩
  · rcases he.isValidTime_eq with ⟨b, hb, hvalid', hseconds'⟩ | ⟨hno, hvalid'⟩
    · simp only [hvalid, hvalid', hseconds, hseconds', Double.le, Double.lt]
      by_cases hlt : a < b
      · refine .inl ⟨⟨a, b, ha, hb, hlt⟩, ?_⟩
        simp [hlt, pure, Except.pure]
      · refine .inr ⟨_, .order ha hb (Nat.not_lt.1 hlt), ?_⟩
        simp [hlt, pure, Except.pure]
    · simp only [hvalid, hvalid']
      exact .inr ⟨_, .stop ha hno, rfl⟩
  · simp only [hvalid]
    exact .inr ⟨_, .start hno, rfl⟩

/-! ## The directive -/

/-- The text of a trim. -/
def trimText (s e : String) : String := "trim from " ++ s ++ " to " ++ e

/-- **The tokens of a trim:** five of them, and none but the keyword matters for where it ends. -/
theorem texts_trimText (hs : BareWord s) (he : BareWord e) (style : CommentStyle) :
    (tokenize style (trimText s e)).map Token.text = ["trim", "from", s, "to", e] := by
  have hword : ∀ w ∈ ["trim", "from", "to"], IsItem w.toList := by
    have hchars : ∀ w ∈ ["trim", "from", "to"], w.toList ≠ [] ∧
        w.toList.all (fun c => !isSeparating c && c != '"' && c != '#') = true := by decide
    exact fun w hw => .word (hchars w hw).1 (hchars w hw).2
  have hitems : ∀ x ∈ [([], "trim"), ([' '], "from"), ([' '], s), ([' '], "to"), ([' '], e)],
      IsItem x.2.toList := by
    simp only [List.forall_mem_cons]
    exact ⟨hword _ (by decide), hword _ (by decide), hs.item, hword _ (by decide), he.item,
      fun x hx => (List.not_mem_nil hx).elim⟩
  have hlaid := @laidOut_of_gaps
    [([], "trim"), ([' '], "from"), ([' '], s), ([' '], "to"), ([' '], e)] [] hitems
    (by simp [isSeparating, Text.isBlank]) (by simp) (by decide)
  apply map_text_tokenize_laidOut
  simpa [trimText, String.toList_append] using hlaid

variable {keyword : Token} {rest : List Token}

/-- **A trim of two bare words** is left to its condition. -/
theorem match_trim (hs : BareWord s) (he : BareWord e) (hkeyword : keyword.text = "trim")
    (hrest : rest.map Token.text = ["from", s, "to", e]) :
    directives.match keyword rest =
      trimPattern.conclude keyword (keyword :: rest)
        (.done [("start", some s), ("end", some e)] 5) := by
  have hfind : directives.find? keyword.text = some trimPattern := by
    rw [hkeyword]
    rfl
  have hlength : rest.length = 4 := by
    rw [← List.length_map Token.text, hrest]
    rfl
  have hrequired : trimPattern.required = 4 := by decide
  have hplaced := wellPlaced_directives trimPattern (find?_directives hfind).1
  rw [match_eq_walk rest hfind hplaced, if_neg (by omega), hrest, walkFrom_trim, if_pos rfl,
    if_pos hs.accepts_line, if_pos rfl, if_pos he.accepts_line]

theorem spaced_trim (hkeyword : keyword.text = "trim")
    (hrest : rest.map Token.text = ["from", s, "to", e]) :
    spaced ((keyword :: rest).take 5) = trimText s e := by
  rw [spaced, List.map_take, List.map_cons, hkeyword, hrest,
    show String.intercalate " " (["trim", "from", s, "to", e].take 5) =
      "trim" ++ " " ++ "from" ++ " " ++ s ++ " " ++ "to" ++ " " ++ e from rfl, ← String.toList_inj]
  simp [trimText, String.toList_append]

/-- The diagnostic of a trim that is refused. -/
def trimDiagnostic (keyword : Token) (s e detail : String) : Diagnostic :=
  .about keyword "trim" ("Params didn't validate: \x7b" ++ trimText s e ++ "\x7d") (some detail)

/-- **The segments of a trim:** the directive if the times are in order, and otherwise one that is
rejected with all of its tokens. -/
theorem segments_trim (hs : BareWord s) (he : BareWord e) (hkeyword : keyword.text = "trim")
    (hrest : rest.map Token.text = ["from", s, "to", e]) :
    Precedes s e ∧ directives.segments (keyword :: rest) =
        .ok [.directive (.trim s e) (trimText s e) (keyword :: rest)] ∨
      ∃ detail, TrimFault s e detail ∧ directives.segments (keyword :: rest) =
        .ok [.rejected (trimDiagnostic keyword s e detail) (keyword :: rest)] := by
  have hmatch := match_trim hs he hkeyword hrest
  have hother : ¬ keyword.isComment = true := by
    rw [Token.isComment, hkeyword]
    decide
  have hlength : rest.length = 4 := by
    rw [← List.length_map Token.text, hrest]
    rfl
  have htake : rest.take 4 = rest := List.take_of_length_le hlength.le
  have hdrop : rest.drop 4 = [] := List.drop_of_length_le hlength.le
  have hnil : directives.segments [] = .ok [] := by rw [Registry.segments]
  rw [Registry.segments, if_neg hother, hmatch, Pattern.conclude, spaced_trim hkeyword hrest,
    show trimPattern.validate = validateTrim from rfl]
  rcases validateTrim_cases hs he with ⟨hprecedes, hvalid⟩ | ⟨detail, hfault, hvalid⟩
  · refine .inl ⟨hprecedes, ?_⟩
    have hcreate : trimPattern.create [("start", some s), ("end", some e)] = .ok (.trim s e) := rfl
    simp only [hvalid, hcreate, bind, Except.bind, pure, Except.pure, Nat.reduceSub, htake, hdrop,
      hnil]
  · refine .inr ⟨detail, hfault, ?_⟩
    -- it fails at its last token, which is no comment, and nothing is left behind that
    have hlast : directives.rejectedLength rest 4 = 4 := by
      have hword : rest[3]?.any Token.isComment = false := by
        have htext : (rest.map Token.text)[3]? = some e := by rw [hrest]; rfl
        rw [List.getElem?_map, Option.map_eq_some_iff] at htext
        obtain ⟨t, ht, rfl⟩ := htext
        rw [ht, Option.any_some, Token.isComment, decide_eq_false_iff_not]
        exact fun hhead => he.not_mem (.inr rfl) (List.mem_of_mem_head? hhead)
      simp [Registry.rejectedLength, hword, hdrop]
    simp only [hvalid, bind, Except.bind, pure, Except.pure, Nat.reduceSub, hlast, htake, hdrop,
      hnil]
    rfl

/-- **A script of one trim** gives the command exactly if its two words are times in whole seconds
and the second is later. Otherwise it gives no command, and one diagnostic that says what is
wrong. -/
theorem parse_trim_iff (hs : BareWord s) (he : BareWord e) (style : CommentStyle) :
    ∃ r, parse style (trimText s e) = .ok r ∧
      (r.commands = [.trim s e] ∧ r.errors = [] ↔ Precedes s e) ∧
      (¬ Precedes s e → r.commands = [] ∧
        r.errors = ["Params didn't validate: \x7b" ++ trimText s e ++ "\x7d"] ∧
        ∃ d detail, r.diagnostics = [d] ∧ d.detail = some detail ∧ TrimFault s e detail) := by
  obtain ⟨keyword, rest, htokens⟩ : ∃ t rest, tokenize style (trimText s e) = t :: rest := by
    refine List.exists_cons_of_ne_nil fun hnil => ?_
    have htexts := texts_trimText hs he style
    rw [hnil] at htexts
    cases htexts
  have htexts := texts_trimText hs he style
  rw [htokens, List.map_cons, List.cons.injEq] at htexts
  rw [parse, Registry.parse, htokens]
  rcases segments_trim hs he htexts.1 htexts.2 with ⟨hprecedes, hsegments⟩ |
    ⟨detail, hfault, hsegments⟩
  · rw [hsegments]
    exact ⟨_, rfl, ⟨fun _ => hprecedes, fun _ => ⟨rfl, rfl⟩⟩, fun hno => absurd hprecedes hno⟩
  · have hno := hfault.not_precedes hs he
    rw [hsegments]
    refine ⟨_, rfl, ⟨?_, fun hprecedes => absurd hprecedes hno⟩, fun _ => ⟨rfl, rfl, ?_⟩⟩
    · rintro ⟨hcommands, -⟩
      cases hcommands
    · exact ⟨_, detail, rfl, rfl, hfault⟩

theorem bareWord_of_length {w : String} (hne : w.toList ≠ [])
    (hchars : w.toList.all (fun c => !isSeparating c && c != '"' && c != '#') = true)
    (hpoint : '.' ∉ w.toList) (hlen : w.toList.length ≤ Number.digitLimit) : BareWord w :=
  ⟨hne, hchars, hpoint, fun _ _ hin => hin.length_le.trans hlen⟩

theorem isTime_fiveSeconds : IsTime "0:05" 5 :=
  ⟨0, 0, 5, @HasParts.minutes ['0'] ['0', '5'] (by decide) (by decide), by decide, by decide,
    by decide, by decide⟩

theorem isTime_minute : IsTime "00:01:00" 60 :=
  ⟨0, 1, 0, @HasParts.hours ['0', '0'] ['0', '1'] ['0', '0'] (by decide) (by decide) (by decide),
    by decide, by decide, by decide, by decide⟩

/-- Two times in order, and the same two the other way round. -/
theorem parse_trim_iff_minute :
    BareWord "0:05" ∧ BareWord "00:01:00" ∧
      (∃ r, parse .bare "trim from 0:05 to 00:01:00" = .ok r ∧
        r.commands = [.trim "0:05" "00:01:00"] ∧ r.errors = []) ∧
      ∃ r, parse .bare "trim from 00:01:00 to 0:05" = .ok r ∧ r.commands = [] ∧
        r.errors = ["Params didn't validate: \x7btrim from 00:01:00 to 0:05\x7d"] := by
  have hs : BareWord "0:05" :=
    bareWord_of_length (by decide) (by decide) (by decide) (by decide)
  have he : BareWord "00:01:00" :=
    bareWord_of_length (by decide) (by decide) (by decide) (by decide)
  refine ⟨hs, he, ?_, ?_⟩
  · obtain ⟨r, hr, hiff, -⟩ := parse_trim_iff hs he .bare
    exact ⟨r, hr, hiff.2 ⟨5, 60, isTime_fiveSeconds, isTime_minute, by decide⟩⟩
  · obtain ⟨r, hr, -, hno⟩ := parse_trim_iff he hs .bare
    have hrefused := hno fun ⟨a, b, ha, hb, hlt⟩ => by
      obtain rfl := he.isTime_unique ha isTime_minute
      obtain rfl := hs.isTime_unique hb isTime_fiveSeconds
      exact absurd hlt (by decide)
    exact ⟨r, hr, hrefused.1, hrefused.2.1⟩

end ClipScript
