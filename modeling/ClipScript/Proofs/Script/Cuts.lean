/-
# How a script is cut

`Registry.segments` is a recursion over the tokens that are left. Here it is related to
*cuts*, which speak of places among all the tokens of a script: a cut is a segment
with the place where it starts and the place where the next one does, and says in terms
of these what each kind of segment has to be. The relation does not mention the
recursion, so it can be read on its own:

* a comment is cut off by itself;
* a directive that is made is cut off behind the tokens it used;
* a rejected directive goes on to the place where reading is taken up again
  (`Resumes`), which depends on the token at fault.

Cuts are the steps of the recursion (`Cut.segments_eq`), and there is one at every
token, unless the directive that starts there has a numeral that is too long
(`exists_cut`). So a run makes consecutive cuts from the first token on, up to the last
one or to such a directive (`exists_cuts`), and in the second case there is no script.
-/
import ClipScript.Proofs.Directives.Faults
import ClipScript.Proofs.Token.Lexemes

set_option autoImplicit false

namespace ClipScript

variable {tokens : List Token} {i j k : Nat}

theorem drop_of_getElem? {t : Token} (h : tokens[i]? = some t) :
    tokens.drop i = t :: tokens.drop (i + 1) := by
  obtain ⟨hi, rfl⟩ := List.getElem?_eq_some_iff.1 h
  exact List.drop_eq_getElem_cons hi

/-! ## Where reading is taken up again -/

/-- **Where reading is taken up again** after a directive at `i` that failed at the `failedAt`-th
token after it. -/
inductive Resumes (tokens : List Token) (i failedAt : Nat) : Nat → Prop where
  /-- At the token at fault, if that is a comment after the keyword. -/
  | here {t : Token} (after : 0 < failedAt) (fault : tokens[i + failedAt]? = some t)
      (comment : t.isComment = true) : Resumes tokens i failedAt (i + failedAt)
  /-- Otherwise at the first token behind it that can start a segment, or at the end. -/
  | behind {j : Nat}
      (other : 0 < failedAt → ∀ t, tokens[i + failedAt]? = some t → t.isComment = false)
      (lt : i + failedAt < j) (le : j ≤ tokens.length)
      (starts : ∀ t, tokens[j]? = some t → directives.starts t = true)
      (first : ∀ k t, i + failedAt < k → k < j → tokens[k]? = some t →
        directives.starts t = false) : Resumes tokens i failedAt j

theorem Resumes.lt {failedAt : Nat} (h : Resumes tokens i failedAt j) : i < j := by
  rcases h with ⟨hafter, -, -⟩ | ⟨-, hlt, -, -, -⟩
  · omega
  · omega

theorem Resumes.unique {failedAt : Nat} (h : Resumes tokens i failedAt j)
    (h' : Resumes tokens i failedAt k) : j = k := by
  rcases h with ⟨hafter, hfault, hcomment⟩ | ⟨hother, hlt, hle, hstarts, hfirst⟩
  · rcases h' with _ | ⟨hother', -, -, -, -⟩
    · rfl
    · rw [hother' hafter _ hfault] at hcomment
      cases hcomment
  · rcases h' with ⟨hafter', hfault', hcomment'⟩ | ⟨-, hlt', hle', hstarts', hfirst'⟩
    · rw [hother hafter' _ hfault'] at hcomment'
      cases hcomment'
    · -- neither can be before the other, since both are the first
      rcases Nat.lt_trichotomy j k with hjk | hjk | hjk
      · have ht := List.getElem?_eq_getElem (show j < tokens.length by omega)
        have hno := hfirst' j _ hlt hjk ht
        rw [hstarts _ ht] at hno
        cases hno
      · exact hjk
      · have ht := List.getElem?_eq_getElem (show k < tokens.length by omega)
        have hno := hfirst k _ hlt' hjk ht
        rw [hstarts' _ ht] at hno
        cases hno

/-- The items before the first one that fails a test, and that one. -/
theorem length_takeWhile_first {α : Type} (p : α → Bool) (l : List α) :
    (∀ n a, n < (l.takeWhile p).length → l[n]? = some a → p a = true) ∧
      (∀ a, l[(l.takeWhile p).length]? = some a → p a = false) := by
  induction l with
  | nil => simp
  | cons b l ih =>
    by_cases hb : p b = true
    · rw [List.takeWhile_cons_of_pos hb, List.length_cons]
      refine ⟨?_, fun a ha => ih.2 a (by simpa using ha)⟩
      intro n a hn ha
      rcases n with _ | n
      · rw [List.getElem?_cons_zero, Option.some.injEq] at ha
        rwa [← ha]
      · exact ih.1 n a (by omega) (by simpa using ha)
    · rw [List.takeWhile_cons_of_neg hb]
      refine ⟨fun n a hn => absurd hn (Nat.not_lt_zero n), ?_⟩
      intro a ha
      rw [List.length_nil, List.getElem?_cons_zero, Option.some.injEq] at ha
      rw [← ha]
      simpa using hb

/-- The first token from `k` on that can start a segment. -/
theorem first_start (tokens : List Token) (hk : k ≤ tokens.length) :
    k + ((tokens.drop k).takeWhile fun t => !directives.starts t).length ≤ tokens.length ∧
    (∀ t, tokens[k + ((tokens.drop k).takeWhile fun t => !directives.starts t).length]? = some t →
      directives.starts t = true) ∧
    (∀ n t, k ≤ n → n < k + ((tokens.drop k).takeWhile fun t => !directives.starts t).length →
      tokens[n]? = some t → directives.starts t = false) := by
  have hprefix : (tokens.drop k).takeWhile (fun t => !directives.starts t) <+: tokens.drop k :=
    List.takeWhile_prefix _
  have hlen := hprefix.length_le
  obtain ⟨hbefore, hat⟩ :=
    length_takeWhile_first (fun t => !directives.starts t) (tokens.drop k)
  rw [List.length_drop] at hlen
  refine ⟨by omega, ?_, ?_⟩
  · intro t ht
    have h := hat t (by rwa [List.getElem?_drop])
    simpa using h
  · intro n t hkn hn ht
    have h := hbefore (n - k) t (by omega) (by rwa [List.getElem?_drop, Nat.add_sub_of_le hkn])
    simpa using h

/-- **The length of a rejected directive** leads to where reading is taken up again. -/
theorem resumes_rejectedLength {failedAt : Nat} (h : i + failedAt < tokens.length) :
    Resumes tokens i failedAt
      (i + 1 + directives.rejectedLength (tokens.drop (i + 1)) failedAt) := by
  rcases failedAt with _ | f
  · -- the keyword itself failed, so the tokens behind it are gone through
    obtain ⟨hle, hstarts, hfirst⟩ := first_start (k := i + 1) tokens (by omega)
    exact .behind (by omega) (by omega) hle hstarts fun n t hn => hfirst n t (by omega)
  · have hplace : i + 1 + f = i + (f + 1) := by omega
    -- a later token failed, and it is there, since the directive reaches that far
    obtain ⟨t, ht⟩ : ∃ t, tokens[i + (f + 1)]? = some t := ⟨_, List.getElem?_eq_getElem h⟩
    rw [Registry.rejectedLength, List.getElem?_drop, List.drop_drop, hplace, ht, Option.any_some,
      ← Nat.add_assoc (i + 1), hplace]
    by_cases hc : t.isComment = true
    · rw [if_pos hc, hplace]
      exact .here (Nat.succ_pos f) ht hc
    · rw [if_neg hc, ← Nat.add_assoc (i + 1), show i + 1 + (f + 1) = i + (f + 1) + 1 by omega]
      obtain ⟨hle, hstarts, hfirst⟩ := first_start (k := i + (f + 1) + 1) tokens (by omega)
      refine .behind ?_ (by omega) hle hstarts fun n t hn => hfirst n t (by omega)
      intro _ t' ht'
      rw [ht, Option.some.injEq] at ht'
      rw [← ht']
      simpa using hc

/-! ## Cuts -/

/-- **A cut:** a segment that starts at `i`, with the next one starting at `j`. -/
inductive Cut (tokens : List Token) : Nat → Segment Command → Nat → Prop where
  /-- A comment by itself. -/
  | comment {i : Nat} {t : Token} (here : tokens[i]? = some t) (comment : t.isComment = true) :
    Cut tokens i (.comment (.comment t.text) t) (i + 1)
  /-- A directive that is made, with the tokens it used. -/
  | directive {i : Nat} {t : Token} {node : Command} {consumed : Nat}
      (here : tokens[i]? = some t) (other : t.isComment = false)
      (keyword : directives.hasKeyword t.text = true)
      (made : directives.match t (tokens.drop (i + 1)) =
        .ok (.made node (spaced ((tokens.drop i).take consumed)) consumed))
      (pos : 1 ≤ consumed) (within : i + consumed ≤ tokens.length) :
    Cut tokens i (.directive node (spaced ((tokens.drop i).take consumed))
      ((tokens.drop i).take consumed)) (i + consumed)
  /-- A directive that failed, with the tokens up to where reading is taken up again. -/
  | rejected {i j : Nat} {t : Token} {diagnostic : Diagnostic} {failedAt : Nat}
      (here : tokens[i]? = some t) (other : t.isComment = false)
      (failed : directives.match t (tokens.drop (i + 1)) = .ok (.failed diagnostic failedAt))
      (within : i + failedAt < tokens.length) (resumes : Resumes tokens i failedAt j) :
    Cut tokens i (.rejected diagnostic ((tokens.drop i).take (j - i))) j

namespace Cut

variable {segment : Segment Command}

theorem lt (h : Cut tokens i segment j) : i < j := by
  rcases h with _ | ⟨_, _, _, _, hpos, _⟩ | ⟨_, _, _, _, hresumes⟩
  · omega
  · omega
  · exact hresumes.lt

theorem le (h : Cut tokens i segment j) : j ≤ tokens.length := by
  rcases h with ⟨hhere, _⟩ | ⟨_, _, _, _, _, hwithin⟩ | ⟨_, _, _, hwithin, hresumes⟩
  · have := (List.getElem?_eq_some_iff.1 hhere).1
    omega
  · exact hwithin
  · rcases hresumes with _ | ⟨_, _, hle, _, _⟩
    · omega
    · exact hle

/-- **The tokens of a segment** are the ones between its place and the next. -/
theorem tokens_eq (h : Cut tokens i segment j) :
    segment.tokens = (tokens.drop i).take (j - i) := by
  rcases h with ⟨hhere, _⟩ | _ | _
  · obtain ⟨hi, rfl⟩ := List.getElem?_eq_some_iff.1 hhere
    rw [Nat.add_sub_cancel_left, List.drop_eq_getElem_cons hi]
    rfl
  · rw [Nat.add_sub_cancel_left]
    rfl
  · rfl

end Cut

/-- **Consecutive cuts** from `i` to `j`. -/
inductive Cuts (tokens : List Token) : Nat → List (Segment Command) → Nat → Prop where
  | nil {i : Nat} : Cuts tokens i [] i
  | cons {i j k : Nat} {segment : Segment Command} {segments : List (Segment Command)}
      (cut : Cut tokens i segment j) (cuts : Cuts tokens j segments k) :
    Cuts tokens i (segment :: segments) k

namespace Cuts

variable {segments : List (Segment Command)}

theorem le (h : Cuts tokens i segments j) : i ≤ j := by
  induction h with
  | nil => exact Nat.le_refl _
  | cons cut _ ih => exact Nat.le_trans (Nat.le_of_lt cut.lt) ih

/-- **Nothing is lost or read twice:** the segments together are the tokens. -/
theorem flatMap_tokens (h : Cuts tokens i segments j) :
    segments.flatMap Segment.tokens = (tokens.drop i).take (j - i) := by
  induction h with
  | nil => simp
  | @cons i j k segment segments cut cuts ih =>
    have hlt := cut.lt
    have hle := cuts.le
    rw [List.flatMap_cons, cut.tokens_eq, ih, show k - i = j - i + (k - j) by omega, List.take_add,
      List.drop_drop, Nat.add_sub_of_le (Nat.le_of_lt hlt)]

theorem tokens_ne_nil (h : Cuts tokens i segments j) :
    ∀ segment ∈ segments, segment.tokens ≠ [] := by
  induction h with
  | nil => simp
  | cons cut _ ih =>
    intro segment hmem
    rcases List.mem_cons.1 hmem with rfl | hmem
    · -- the first segment has as many tokens as there are places between it and the next
      rw [cut.tokens_eq]
      have hlt := cut.lt
      have hle := cut.le
      intro hnil
      have hlen := congrArg List.length hnil
      rw [List.length_take, List.length_drop, List.length_nil] at hlen
      omega
    · exact ih segment hmem

end Cuts

/-! ## Cutting -/

/-- **A cut is a step** of the recursion. -/
theorem Cut.segments_eq {segment : Segment Command} (h : Cut tokens i segment j) :
    directives.segments (tokens.drop i) =
      (directives.segments (tokens.drop j)).map (segment :: ·) := by
  rcases h with @⟨t, hhere, hcomment⟩ | @⟨t, node, consumed, hhere, hother, _, hmade, hpos, _⟩ |
    @⟨_, t, diagnostic, failedAt, hhere, hother, hfailed, hwithin, hresumes⟩
  · rw [drop_of_getElem? hhere, Registry.segments, if_pos hcomment]
    rfl
  · have hdrop := drop_of_getElem? hhere
    -- the keyword comes first, and what the directive used goes with it
    have htake : t :: (tokens.drop (i + 1)).take (consumed - 1) =
        (tokens.drop i).take consumed := by
      rw [hdrop, ← Nat.sub_add_cancel hpos, List.take_succ_cons, Nat.add_sub_cancel]
    rw [hdrop, Registry.segments, if_neg (by simp [hother]), hmade]
    simp only [bind, Except.bind, List.drop_drop, htake,
      show i + 1 + (consumed - 1) = i + consumed by omega]
    rw [← hdrop]
    rfl
  · have hdrop := drop_of_getElem? hhere
    -- the recursion goes on at one such place, and there is only one
    have hj := hresumes.unique (resumes_rejectedLength hwithin)
    rw [hdrop, Registry.segments, if_neg (by simp [hother]), hfailed, ← hdrop]
    simp only [bind, Except.bind, List.drop_drop, ← hj]
    rw [hdrop, show j - i = directives.rejectedLength (tokens.drop (i + 1)) failedAt + 1 by
      omega, List.take_succ_cons]
    rfl

theorem Cuts.segments_eq {segments : List (Segment Command)} (h : Cuts tokens i segments j) :
    directives.segments (tokens.drop i) =
      (directives.segments (tokens.drop j)).map (segments ++ ·) := by
  induction h with
  | nil =>
    rcases directives.segments (tokens.drop _) with f | gs
    · rfl
    · rfl
  | cons cut _ ih =>
    rw [cut.segments_eq, ih]
    rcases directives.segments (tokens.drop _) with f | gs
    · rfl
    · rfl

/-- At a directive with a numeral that is too long, the recursion fails. -/
theorem segments_of_overruns {n : Nat} (h : Overruns ((tokens.drop i).map Token.text) n) :
    directives.segments (tokens.drop i) = .error (.tooManyDigits n) := by
  generalize tokens.drop i = ts at h ⊢
  rcases ts with _ | ⟨t, rest⟩
  · rcases h with ⟨heq, -⟩ | ⟨heq, -⟩ | ⟨heq, -⟩ | ⟨heq, -⟩ | ⟨heq, -⟩ | ⟨heq, -⟩
    all_goals cases heq
  · -- the directive has one of five keywords, and none of them is a comment
    have hcomment : ¬ t.isComment = true := by
      have hother : ∀ w ∈ ["remove_frames", "trim", "scale", "crop", "add_text"],
          ¬ w.toList.head? = some '#' := by decide
      rw [Token.isComment, decide_eq_true_iff]
      exact hother _ h.keyword_mem
    rw [Registry.segments, if_neg hcomment, (match_failsFor t rest).error h]
    rfl

/-- **There is a cut at every token,** unless a numeral there is too long. -/
theorem exists_cut (h : i < tokens.length) :
    (∃ segment j, Cut tokens i segment j) ∨
      ∃ n, Overruns ((tokens.drop i).map Token.text) n := by
  obtain ⟨t, ht⟩ : ∃ t, tokens[i]? = some t := ⟨_, List.getElem?_eq_getElem h⟩
  have hdrop := drop_of_getElem? ht
  by_cases hc : t.isComment = true
  · exact .inl ⟨_, i + 1, .comment ht hc⟩
  · rw [Bool.not_eq_true] at hc
    rcases hm : directives.match t (tokens.drop (i + 1)) with
      f | ⟨node, source, consumed⟩ | ⟨diagnostic, failedAt⟩
    · -- a fault can only come from a numeral that is too long
      obtain ⟨n, hn, -⟩ := (match_failsFor t (tokens.drop (i + 1)) f).1 hm
      rw [hdrop]
      exact .inr ⟨n, hn⟩
    · obtain ⟨p, bs, hmade⟩ := match_made.1 hm
      have hle := hmade.consumed_le
      rw [List.length_drop] at hle
      obtain rfl := hmade.source_eq
      rw [← hdrop] at hm
      exact .inl ⟨_, i + consumed, .directive ht hc hmade.hasKeyword hm hmade.pos (by omega)⟩
    · have hle := failedAt_le hm
      rw [List.length_drop] at hle
      have hwithin : i + failedAt < tokens.length := by omega
      exact .inl ⟨_, _, .rejected ht hc hm hwithin (resumes_rejectedLength hwithin)⟩

/-- **A whole run:** the tokens from `i` on can be cut to the last one, or up to a numeral that is
too long. -/
theorem exists_cuts (tokens : List Token) {i : Nat} (h : i ≤ tokens.length) :
    ∃ segments j, Cuts tokens i segments j ∧
      (j = tokens.length ∨ ∃ n, Overruns ((tokens.drop j).map Token.text) n) := by
  by_cases hi : i < tokens.length
  · rcases exists_cut hi with ⟨segment, j, hcut⟩ | hover
    · -- the next segment starts further on, which is why the run comes to an end
      have := hcut.lt
      obtain ⟨segments, k, hcuts, hend⟩ := exists_cuts tokens hcut.le
      exact ⟨segment :: segments, k, .cons hcut hcuts, hend⟩
    · exact ⟨[], i, .nil, .inr hover⟩
  · exact ⟨[], i, .nil, .inl (by omega)⟩
termination_by tokens.length - i

/-! ## Scripts -/

/-- Whether a segment is a directive that was rejected. -/
def Segment.isRejected {α : Type} : Segment α → Bool
  | rejected .. => true
  | _ => false

namespace Script

/-- **A script accounts for tokens:** its segments are consecutive cuts of all of them, and what it
reports comes from the segments in order, one command and one text from each that is understood
and one diagnostic with its message from each that is rejected. -/
structure Accounts (s : Script Command) (tokens : List Token) : Prop where
  cuts : Cuts tokens 0 s.segments tokens.length
  covered : s.segments.flatMap Segment.tokens = tokens
  nonempty : ∀ segment ∈ s.segments, segment.tokens ≠ []
  understood : s.segments.filterMap Segment.understood? = s.commands.zip s.snippets
  rejected : s.segments.filterMap Segment.diagnostic? = s.diagnostics
  commands : s.commands.length = s.segments.countP fun g => !g.isRejected
  snippets : s.snippets.length = s.segments.countP fun g => !g.isRejected
  diagnostics : s.diagnostics.length = s.segments.countP Segment.isRejected
  errors : s.errors = s.diagnostics.map Diagnostic.message

/-- The commands and their texts, side by side. -/
theorem zip_commands_snippets (s : Script Command) : s.commands.zip s.snippets = s.understood := by
  have hzip := List.zip_unzip s.understood
  rwa [List.unzip_eq_map] at hzip

theorem length_understood (s : Script Command) :
    s.understood.length = s.segments.countP fun g => !g.isRejected := by
  rw [understood, List.length_filterMap_eq_countP]
  refine List.countP_congr fun g _ => ?_
  rcases g with _ | _ | _ <;> simp [Segment.understood?, Segment.isRejected]

theorem length_diagnostics (s : Script Command) :
    s.diagnostics.length = s.segments.countP Segment.isRejected := by
  rw [diagnostics, List.length_filterMap_eq_countP]
  refine List.countP_congr fun g _ => ?_
  rcases g with _ | _ | _ <;> simp [Segment.diagnostic?, Segment.isRejected]

/-- Consecutive cuts of all tokens account for them. -/
theorem accounts_of_cuts {s : Script Command}
    (h : Cuts tokens 0 s.segments tokens.length) : s.Accounts tokens where
  cuts := h
  covered := by
    rw [h.flatMap_tokens, List.drop_zero, Nat.sub_zero, List.take_length]
  nonempty := h.tokens_ne_nil
  understood := s.zip_commands_snippets.symm
  rejected := rfl
  commands := by rw [commands, List.length_map, s.length_understood]
  snippets := by rw [snippets, List.length_map, s.length_understood]
  diagnostics := s.length_diagnostics
  errors := rfl

end Script

/-! ## Parsing -/

variable {style : CommentStyle} {source : String} {segments : List (Segment Command)}

/-- Cuts of all tokens are the script. -/
theorem parse_of_cuts
    (h : Cuts (tokenize style source) 0 segments (tokenize style source).length) :
    parse style source = .ok ⟨segments⟩ := by
  have hrun := h.segments_eq
  -- behind the last token nothing is left to cut
  rw [List.drop_zero, List.drop_length, Registry.segments] at hrun
  rw [parse, Registry.parse, hrun]
  simp [Except.map, bind, Except.bind, pure, Except.pure]

/-- Behind some cuts, a numeral that is too long is the end of parsing. -/
theorem parse_of_overruns {n : Nat} (h : Cuts (tokenize style source) 0 segments i)
    (hn : Overruns (((tokenize style source).drop i).map Token.text) n) :
    parse style source = .error (.tooManyDigits n) := by
  have hrun := h.segments_eq
  rw [List.drop_zero, segments_of_overruns hn] at hrun
  rw [parse, Registry.parse, hrun]
  rfl

/-- The segments of a script that is parsed are consecutive cuts. -/
theorem cuts_of_parse {s : Script Command} (h : parse style source = .ok s) :
    Cuts (tokenize style source) 0 s.segments (tokenize style source).length := by
  obtain ⟨segments, j, hcuts, rfl | ⟨n, hn⟩⟩ := exists_cuts _ (Nat.zero_le _)
  · rw [parse_of_cuts hcuts] at h
    cases h
    exact hcuts
  · -- a numeral that is too long would have ended parsing
    rw [parse_of_overruns hcuts hn] at h
    cases h

/-- **Parsing comes to a script** if the numerals of its tokens are short. -/
theorem parse_of_short (h : ∀ t ∈ tokenize style source, ShortNumerals t.text.toList) :
    ∃ s, parse style source = .ok s := by
  obtain ⟨segments, j, hcuts, rfl | ⟨n, hn⟩⟩ := exists_cuts (tokenize style source) (Nat.zero_le _)
  · exact ⟨_, parse_of_cuts hcuts⟩
  · refine absurd hn (not_overruns (List.forall_mem_map.2 ?_) n)
    exact fun t ht => h t (List.mem_of_mem_drop ht)

/-- **Parsing accounts for every token,** exactly if no directive that is come to has a numeral
that is too long. -/
theorem parse_accounts_iff (style : CommentStyle) (source : String) :
    (∃ s, parse style source = .ok s ∧ s.Accounts (tokenize style source)) ↔
      ∀ segments i n, Cuts (tokenize style source) 0 segments i →
        ¬ Overruns (((tokenize style source).drop i).map Token.text) n := by
  constructor
  · rintro ⟨s, hs, -⟩ segments i n hcuts hn
    rw [parse_of_overruns hcuts hn] at hs
    cases hs
  · intro hnone
    obtain ⟨segments, j, hcuts, rfl | ⟨n, hn⟩⟩ := exists_cuts _ (Nat.zero_le _)
    · exact ⟨⟨segments⟩, parse_of_cuts hcuts, Script.accounts_of_cuts hcuts⟩
    · exact absurd hn (hnone segments j n hcuts)

/-! ## Numerals that are too long -/

theorem lexeme_of_isDigits {style : CommentStyle} {cs : List Char} (h : Text.isDigits cs = true) :
    Lexeme style cs := by
  obtain ⟨hne, hdigits⟩ := Number.isDigits_iff.1 h
  obtain ⟨c, ds, rfl⟩ := List.exists_cons_of_ne_nil hne
  exact .word fun d hd => Number.forall_isDigit (by decide +kernel) (hdigits d hd)

/-- The tokens of a directive that removes frames. -/
theorem map_text_removeFrames (style : CommentStyle) {n : String}
    (hn : Text.isDigits n.toList = true) :
    (tokenize style ("remove_frames every " ++ n)).map Token.text =
      ["remove_frames", "every", n] := by
  have hkeyword : Lexeme style "remove_frames".toList := .word (List.all_eq_true.1 (by decide))
  have hevery : Lexeme style "every".toList := .word (List.all_eq_true.1 (by decide))
  have hlaid : Laid style ["remove_frames", "every", n]
      ("remove_frames".toList ++ ' ' :: ("every".toList ++ ' ' :: n.toList)) :=
    .cons hkeyword (by decide) (by decide)
      (.cons hevery (by decide) (by decide) (.last (.inl (lexeme_of_isDigits hn))))
  have hsource : ("remove_frames every " ++ n).toList =
      "remove_frames".toList ++ ' ' :: ("every".toList ++ ' ' :: n.toList) := by
    rw [String.toList_append]
    rfl
  have hsemicolon : ';' ∉ n.toList := fun hmem =>
    absurd ((Number.isDigits_iff.1 hn).2 _ hmem) (by decide)
  refine map_text_tokenize_laid (hsource ▸ hlaid) ?_
  simpa using hsemicolon

/-- **A cycle with too many digits** is not rejected for being out of bounds. -/
theorem parse_removeFrames (style : CommentStyle) {cycle : String} {n : Nat}
    (h : TooLong cycle.toList n) :
    parse style ("remove_frames every " ++ cycle) = .error (.tooManyDigits n) := by
  refine parse_of_overruns .nil (@Overruns.cycle _ n cycle [] ?_ h)
  rw [List.drop_zero]
  exact map_text_removeFrames style h.digits

theorem tooLong_replicate {n : Nat} (h : Number.digitLimit < n) :
    TooLong (String.ofList (List.replicate n '1')).toList n := by
  rw [String.toList_ofList]
  refine ⟨?_, List.length_replicate, h⟩
  rw [Number.isDigits_iff]
  refine ⟨fun hnil => ?_, fun c hc => ?_⟩
  · have hlen := congrArg List.length hnil
    rw [List.length_replicate, List.length_nil] at hlen
    omega
  · rw [List.eq_of_mem_replicate hc]
    decide

/-- The cycle that has one digit too many. -/
def overlongCycle : String := String.ofList (List.replicate 4301 '1')

/-- **Not every source is parsed.** -/
theorem parse_overlongCycle :
    parse .withLineFeed ("remove_frames every " ++ overlongCycle) =
        .error (.tooManyDigits 4301) ∧
      ¬ ∀ style source, ∃ s, parse style source = .ok s ∧ s.Accounts (tokenize style source) := by
  have hlong : TooLong overlongCycle.toList 4301 := tooLong_replicate (by decide)
  have hfault := parse_removeFrames .withLineFeed hlong
  refine ⟨hfault, fun hall => ?_⟩
  obtain ⟨s, hs, -⟩ := hall .withLineFeed ("remove_frames every " ++ overlongCycle)
  rw [hfault] at hs
  cases hs

end ClipScript
