/-
# Comments that are kept

Comments that leave out their line feed are meant to be kept: each becomes a command
of its own, wherever it stands. A directive that meets one where it expects something
else is rejected there, and reading is taken up again at the comment.

Two directives break this (`Swallows`). A file of `input` may be a comment with the
right ending, and the start of a `trim` may be any text in a line, so both go past the
comment. Nothing else does: the comments that are kept are all there are, in order,
exactly if no segment starts with one of these two forms (`comments_kept_iff`).

The proof goes segment by segment. A cut keeps just the comments among its tokens
unless it swallows, and then it keeps none and has one.
-/
import ClipScript.Proofs.Directives.Comments
import ClipScript.Proofs.Script.Cuts

set_option autoImplicit false

namespace ClipScript

variable {tokens : List Token} {i j : Nat} {t : Token} {rest : List Token}

/-! ## Comments in a line -/

/-- A comment without its line feed has none. -/
theorem lineFeed_not_mem_of_wellLexed {ws : List String} (h : WellLexed .bare ws) {w : String}
    (hw : w ∈ ws) (hcomment : w.toList.head? = some '#') : '\n' ∉ w.toList := by
  have hopen : ∀ body : List Char, '\n' ∉ body → '\n' ∉ '#' :: body := by
    intro body hbody hmem
    rcases List.mem_cons.1 hmem with heq | hmem
    · exact absurd heq (by decide)
    · exact hbody hmem
  rcases h.each w hw with hlex | ⟨body, hbody, hline⟩
  · generalize w.toList = cs at *
    rcases hlex with hchars | _ | hline
    · -- neither a word nor a quoted text starts with a number sign
      obtain rfl := Option.some.inj hcomment
      exact absurd (hchars '#' List.mem_cons_self) (by decide)
    · exact absurd hcomment (by simp)
    · rw [CommentStyle.ending, List.append_nil]
      exact hopen _ hline
  · rw [hbody]
    exact hopen body hline

theorem accepts_line_of_hash {w : String} (hcomment : w.toList.head? = some '#')
    (hline : '\n' ∉ w.toList) : Shape.line.accepts w = true := by
  obtain ⟨cs, hcs⟩ := List.head?_eq_some_iff.1 hcomment
  exact Shape.accepts_line.2 ⟨by simp [hcs], hline⟩

/-! ## Directives that swallow a comment -/

/-- **Tokens that begin with a directive that swallows a comment.** -/
inductive Swallows : List Token → Prop where
  /-- A comment that is taken for a file. -/
  | input {keyword c : Token} {after : List Token} (input : keyword.text = "input")
      (comment : c.isComment = true) (file : (Shape.mediaFile inputEndings).accepts c.text = true) :
    Swallows (keyword :: c :: after)
  /-- A comment that is taken for a time, in a directive that has two more tokens. -/
  | trim {keyword word c d e : Token} {after : List Token} (trim : keyword.text = "trim")
      (start : word.text = "from") (comment : c.isComment = true) :
    Swallows (keyword :: word :: c :: d :: e :: after)

/-- The comments among tokens. -/
def commentTexts (ts : List Token) : List String := (ts.filter Token.isComment).map Token.text

/-- The comment that a segment keeps, if it is one. -/
def Segment.kept (g : Segment Command) : List String :=
  (g.understood?.bind fun x => x.1.comment?).toList

theorem ne_of_isComment (h : t.isComment = true) {w : String} (hw : w.toList.head? ≠ some '#') :
    t.text ≠ w := by
  rintro rfl
  rw [Token.isComment, decide_eq_true_iff] at h
  exact hw h

theorem head?_of_isComment (h : t.isComment = true) : t.text.toList.head? = some '#' := by
  rwa [Token.isComment, decide_eq_true_iff] at h

/-! ## Where the two directives fail -/

/-- **An input fails** at the token after the keyword, because that is no file. -/
theorem input_failedAt {diagnostic : Diagnostic} {failedAt : Nat} {a : Token} {ts : List Token}
    (hinput : t.text = "input")
    (h : directives.match t (a :: ts) = .ok (.failed diagnostic failedAt)) :
    failedAt = 1 ∧ ¬ (Shape.mediaFile inputEndings).accepts a.text = true := by
  have hfind : directives.find? t.text = some inputPattern := by rw [hinput]; rfl
  have hends := match_ends t (a :: ts)
  rw [h] at hends
  rcases hends with hmissing | @⟨p, hfound, hshort⟩ | @⟨p, _, _, hfound, _, hwalked, _⟩ |
    @⟨p, bs, _, _, hfound, _, _, hrefused⟩
  · rw [hfind] at hmissing
    cases hmissing
  · obtain rfl : inputPattern = p := Option.some.inj (hfind.symm.trans hfound)
    -- one token is enough for an input
    have hrequired : inputPattern.required = 1 := by decide
    rw [hrequired, List.length_cons] at hshort
    omega
  · obtain rfl : inputPattern = p := Option.some.inj (hfind.symm.trans hfound)
    rw [List.map_cons, walkFrom_input] at hwalked
    split at hwalked
    · cases hwalked
    · next hfile => exact ⟨(Walk.stuck.inj hwalked).symm, hfile⟩
  · -- an input has no condition that could refuse it
    obtain rfl : inputPattern = p := Option.some.inj (hfind.symm.trans hfound)
    cases hrefused

/-- **A trim fails** at the first token that does not fit, and at its last one if they all do. -/
theorem trim_failedAt {diagnostic : Diagnostic} {failedAt : Nat} {a b c d : Token}
    {ts : List Token} (htrim : t.text = "trim")
    (h : directives.match t (a :: b :: c :: d :: ts) = .ok (.failed diagnostic failedAt)) :
    failedAt =
      if a.text = "from" then
        if Shape.line.accepts b.text then if c.text = "to" then 4 else 3 else 2
      else 1 := by
  have hfind : directives.find? t.text = some trimPattern := by rw [htrim]; rfl
  have hends := match_ends t (a :: b :: c :: d :: ts)
  rw [h] at hends
  rcases hends with hmissing | @⟨p, hfound, hshort⟩ | @⟨p, _, _, hfound, _, hwalked, _⟩ |
    @⟨p, bs, used, _, hfound, _, hwalked, _⟩
  · rw [hfind] at hmissing
    cases hmissing
  · obtain rfl : trimPattern = p := Option.some.inj (hfind.symm.trans hfound)
    -- four tokens are enough for a trim
    have hrequired : trimPattern.required = 4 := by decide
    simp only [hrequired, List.length_cons] at hshort
    omega
  · obtain rfl : trimPattern = p := Option.some.inj (hfind.symm.trans hfound)
    simp only [List.map_cons, walkFrom_trim] at hwalked
    by_cases ha : a.text = "from"
    · rw [if_pos ha] at hwalked ⊢
      -- each slot is reached only if the ones before it fit
      by_cases hb : Shape.line.accepts b.text = true
      · rw [if_pos hb] at hwalked ⊢
        by_cases hc : c.text = "to"
        · rw [if_pos hc] at hwalked ⊢
          split at hwalked
          · cases hwalked
          · exact (Walk.stuck.inj hwalked).symm
        · rw [if_neg hc] at hwalked ⊢
          exact (Walk.stuck.inj hwalked).symm
      · rw [if_neg hb] at hwalked ⊢
        exact (Walk.stuck.inj hwalked).symm
    · rw [if_neg ha] at hwalked ⊢
      exact (Walk.stuck.inj hwalked).symm
  · obtain rfl : trimPattern = p := Option.some.inj (hfind.symm.trans hfound)
    -- all slots fit, and the times were refused afterwards
    obtain ⟨start, stop, ts', hts, hline, -, -, rfl⟩ := walkFrom_trim_done.1 hwalked
    simp only [List.map_cons, List.cons.injEq] at hts
    obtain ⟨ha, rfl, hc, -⟩ := hts
    rw [if_pos ha, if_pos hline, if_pos hc]

/-! ## What is swallowed -/

/-- The pattern of a directive that failed behind its keyword, with enough tokens. -/
theorem exists_pattern_of_failed {diagnostic : Diagnostic} {failedAt : Nat}
    (h : directives.match t rest = .ok (.failed diagnostic failedAt)) (hpos : 0 < failedAt) :
    ∃ p, directives.find? t.text = some p ∧ p.required ≤ rest.length ∧
      failedAt ≤ (p.walkFrom (rest.map Token.text)).stop := by
  have hends := match_ends t rest
  rw [h] at hends
  rcases hends with _ | _ | @⟨p, place, _, hfound, hcomplete, hwalked, _⟩ |
    @⟨p, bs, used, _, hfound, hcomplete, hwalked, _⟩
  · exact absurd hpos (Nat.lt_irrefl _)
  · exact absurd hpos (Nat.lt_irrefl _)
  · exact ⟨p, hfound, hcomplete, by rw [hwalked, Walk.stop]⟩
  · exact ⟨p, hfound, hcomplete, by rw [hwalked, Walk.stop]; omega⟩

/-- **A rejected directive swallows** any comment that it has gone past before it failed. -/
theorem swallows_of_passed {diagnostic : Diagnostic} {failedAt k : Nat} {c : Token}
    (h : directives.match t rest = .ok (.failed diagnostic failedAt)) (hk : k + 1 < failedAt)
    (hc : rest[k]? = some c) (hcomment : c.isComment = true) : Swallows (t :: rest) := by
  obtain ⟨p, hfind, hcomplete, hstop⟩ := exists_pattern_of_failed h (by omega)
  obtain ⟨hp, hname⟩ := find?_directives hfind
  -- the walk has passed the comment, so some slot accepts it
  obtain ⟨s, hs, haccepts⟩ : ∃ s ∈ p.ordered, s.shape.accepts c.text = true := by
    have hall := walk_passed (parts p.ordered) (rest.map Token.text) [] 1
    rw [← Pattern.walkFrom, flatMap_slots_parts] at hall
    refine hall c.text (List.mem_iff_getElem?.2 ⟨k, ?_⟩)
    rw [List.getElem?_take_of_lt (by omega), List.getElem?_map, hc]
    rfl
  have hhash := head?_of_isComment hcomment
  rcases name_of_accepts_comment hp hs hhash haccepts with
    hname' | hname'
  · -- an input fails before it has gone past anything
    obtain ⟨a, ts, rfl⟩ : ∃ a ts, rest = a :: ts := by
      rcases rest with _ | ⟨a, ts⟩
      · cases hc
      · exact ⟨a, ts, rfl⟩
    obtain ⟨rfl, -⟩ := input_failedAt (hname.symm.trans hname') h
    omega
  · -- in a trim, only the start can be a comment that was passed
    obtain rfl : p = trimPattern := eq_of_name_eq hp (List.getElem_mem _) hname'
    obtain ⟨a, b, c', d, ts, rfl⟩ := exists_of_trimPattern_required hcomplete
    have htrim := hname.symm.trans hname'
    have hfailed := trim_failedAt htrim h
    by_cases ha : a.text = "from"
    · rw [if_pos ha] at hfailed
      rcases k with _ | _ | _ | k
      · obtain rfl : a = c := Option.some.inj hc
        exact absurd ha (ne_of_isComment hcomment (by decide))
      · obtain rfl : b = c := Option.some.inj hc
        exact .trim htrim ha hcomment
      · obtain rfl : c' = c := Option.some.inj hc
        rw [if_neg (ne_of_isComment hcomment (by decide))] at hfailed
        split at hfailed
        · omega
        · omega
      · have hle : failedAt ≤ 4 := by
          rw [hfailed]
          split
          · split
            · omega
            · omega
          · omega
        omega
    · rw [if_neg ha] at hfailed
      omega

/-- **What a trim swallows** it goes past before it fails. -/
theorem lt_failedAt_of_comment {diagnostic : Diagnostic} {failedAt : Nat} {a b c d : Token}
    {ts : List Token} (htrim : t.text = "trim") (ha : a.text = "from")
    (hb : b.isComment = true) (hline : '\n' ∉ b.text.toList)
    (h : directives.match t (a :: b :: c :: d :: ts) = .ok (.failed diagnostic failedAt)) :
    2 < failedAt := by
  have hfailed := trim_failedAt htrim h
  rw [if_pos ha, if_pos (accepts_line_of_hash (head?_of_isComment hb) hline)] at hfailed
  split at hfailed
  · omega
  · omega

/-! ## Segment by segment -/

/-- A token that starts a directive is no comment, so its comments are those behind it. -/
theorem commentTexts_cons (h : t.isComment = false) (ts : List Token) :
    commentTexts (t :: ts) = commentTexts ts := by
  rw [commentTexts, List.filter_cons_of_neg (by simp [h])]
  rfl

theorem commentTexts_append (ts us : List Token) :
    commentTexts (ts ++ us) = commentTexts ts ++ commentTexts us := by
  rw [commentTexts, List.filter_append, List.map_append]
  rfl

theorem commentTexts_ne_nil {ts : List Token} :
    commentTexts ts ≠ [] ↔ ∃ c ∈ ts, c.isComment = true := by
  rw [commentTexts, Ne, List.map_eq_nil_iff, List.filter_eq_nil_iff]
  simp only [Classical.not_forall, Classical.not_not, exists_prop]

/-- No comment swallows another. -/
theorem not_swallows_of_comment (h : t.isComment = true) : ¬ Swallows (t :: rest) := by
  rintro (⟨hinput, -, -⟩ | ⟨htrim, -, -⟩)
  · exact ne_of_isComment h (by decide) hinput
  · exact ne_of_isComment h (by decide) htrim

/-- **A directive that is made** has a comment exactly if it swallows it. -/
theorem made_comments {node : Command} {source : String} {consumed : Nat} {p : Pattern Command}
    {bs : Bindings} (h : Made t rest node source consumed p bs) :
    commentTexts (rest.take (consumed - 1)) ≠ [] ↔ Swallows (t :: rest) := by
  obtain ⟨hp, hname⟩ := find?_directives h.found
  constructor
  · intro hcomments
    obtain ⟨c, hc, hcomment⟩ := commentTexts_ne_nil.1 hcomments
    have hpos := h.pos
    have hle := h.consumed_le
    have hlen : ((rest.take (consumed - 1)).map Token.text).length + 1 = consumed := by
      rw [List.length_map, List.length_take]
      omega
    -- the walk over the texts that were used comes to the same
    have htake := walkFrom_take h.walked
    rw [← List.map_take] at htake
    obtain ⟨hinput, htexts⟩ := comment_of_walkFrom_done hp (by rw [htake, hlen]) h.accepted
      (List.mem_map_of_mem hc) (head?_of_isComment hcomment)
    obtain ⟨c', hc', -⟩ := List.map_eq_singleton_iff.1 htexts
    rw [hc', List.mem_singleton] at hc
    subst hc
    -- the comment is the one text of an input
    obtain ⟨after, rfl⟩ : ∃ after, rest = c :: after :=
      ⟨_, by rw [← List.singleton_append, ← hc', List.take_append_drop]⟩
    obtain rfl : p = inputPattern := eq_of_name_eq hp (List.getElem_mem _) hinput
    have hwalked := h.walked
    rw [List.map_cons, walkFrom_input] at hwalked
    split at hwalked
    · next hfile => exact .input (hname.symm.trans hinput) hcomment hfile
    · cases hwalked
  · intro hswallows
    rcases hswallows with @⟨_, c, after, hinput, hcomment, hfile⟩ |
      @⟨_, w, c, d, e, after, htrim, hstart, hcomment⟩
    · obtain rfl : p = inputPattern := eq_of_name_eq hp (List.getElem_mem _) (hname.trans hinput)
      have hwalked := h.walked
      rw [List.map_cons, walkFrom_input, if_pos hfile] at hwalked
      obtain ⟨-, rfl⟩ := Walk.done.inj hwalked
      exact commentTexts_ne_nil.2 ⟨c, List.mem_cons_self, hcomment⟩
    · -- a trim that is made has no comment for its start, for that would be no time
      obtain rfl : p = trimPattern := eq_of_name_eq hp (List.getElem_mem _) (hname.trans htrim)
      obtain ⟨start, stop, ts, hts, -, -, rfl, -⟩ := walkFrom_trim_done.1 h.walked
      obtain ⟨hvalid, -⟩ := isValidTime_of_validateTrim rfl rfl h.accepted
      simp only [List.map_cons, List.cons.injEq] at hts
      obtain ⟨-, rfl, -⟩ := hts
      rw [isValidTime_of_hash (head?_of_isComment hcomment)] at hvalid
      cases hvalid

/-- **A directive that is rejected** has a comment exactly if it swallows it. -/
theorem rejected_comments {diagnostic : Diagnostic} {failedAt : Nat}
    (hline : ∀ c ∈ tokens, c.isComment = true → '\n' ∉ c.text.toList)
    (here : tokens[i]? = some t) (other : t.isComment = false)
    (failed : directives.match t (tokens.drop (i + 1)) = .ok (.failed diagnostic failedAt))
    (resumes : Resumes tokens i failedAt j) :
    commentTexts ((tokens.drop i).take (j - i)) ≠ [] ↔ Swallows (tokens.drop i) := by
  have hdrop := drop_of_getElem? here
  constructor
  · intro hcomments
    obtain ⟨c, hc, hcomment⟩ := commentTexts_ne_nil.1 hcomments
    obtain ⟨n, hn⟩ := List.mem_iff_getElem?.1 hc
    obtain ⟨hlt, hget⟩ : n < j - i ∧ tokens[i + n]? = some c := by
      rw [List.getElem?_take] at hn
      split at hn
      · next hlt => exact ⟨hlt, by rwa [List.getElem?_drop] at hn⟩
      · cases hn
    -- the comment is neither at the token at fault nor behind it, where it would be kept
    have hpassed : n < failedAt := by
      rcases resumes with _ | ⟨hfault, _, _, _, hfirst⟩
      · omega
      · by_cases hbehind : failedAt < n
        · have hstarts := hfirst (i + n) c (by omega) (by omega) hget
          rw [Registry.starts, hcomment] at hstarts
          cases hstarts
        · by_cases heq : n = failedAt
          · subst heq
            have hnot : c.isComment = false := by
              rcases n with _ | n
              · obtain rfl : t = c := Option.some.inj (here.symm.trans hget)
                exact other
              · exact hfault (Nat.succ_pos n) c hget
            rw [hcomment] at hnot
            cases hnot
          · omega
    -- the keyword is no comment, so it is one of the tokens behind it
    rcases n with _ | k
    · obtain rfl : t = c := Option.some.inj (here.symm.trans hget)
      rw [hcomment] at other
      cases other
    · rw [hdrop]
      refine swallows_of_passed failed hpassed ?_ hcomment
      rw [List.getElem?_drop, show i + 1 + k = i + (k + 1) by omega]
      exact hget
  · intro hswallows
    rw [hdrop] at hswallows ⊢
    generalize hrest : tokens.drop (i + 1) = rest at *
    rcases hswallows with @⟨_, c, after, hinput, hcomment, hfile⟩ |
      @⟨_, w, c, d, e, after, htrim, hstart, hcomment⟩
    · exact absurd hfile (input_failedAt hinput failed).2
    · -- a trim goes past the comment, so its segment has it
      have hmem : c ∈ tokens := List.mem_of_mem_drop (i := i + 1) (by simp [hrest])
      have hlt := lt_failedAt_of_comment htrim hstart hcomment (hline c hmem hcomment) failed
      have hslice : 2 < j - i := by
        rcases resumes with _ | ⟨_, hlt', _, _, _⟩
        · omega
        · omega
      refine commentTexts_ne_nil.2 ⟨c, ?_, hcomment⟩
      exact List.mem_iff_getElem?.2 ⟨2, by rw [List.getElem?_take_of_lt hslice]; rfl⟩

/-- **One segment:** it keeps its comments, or swallows one and keeps none. -/
theorem Cut.kept_cases {g : Segment Command} (h : Cut tokens i g j)
    (hline : ∀ c ∈ tokens, c.isComment = true → '\n' ∉ c.text.toList) :
    (g.kept = commentTexts g.tokens ∧ ¬ Swallows (tokens.drop i)) ∨
      (g.kept = [] ∧ commentTexts g.tokens ≠ [] ∧ Swallows (tokens.drop i)) := by
  rcases h with @⟨t, here, hcomment⟩ | @⟨t, node, consumed, here, hother, _, hmade, hpos, _⟩ |
    @⟨_, t, diagnostic, failedAt, here, hother, hfailed, _, hresumes⟩
  · rw [drop_of_getElem? here]
    refine .inl ⟨?_, not_swallows_of_comment hcomment⟩
    simp [Segment.kept, Segment.understood?, Segment.tokens, commentTexts, hcomment,
      Command.comment?]
  · obtain ⟨p, bs, hmade⟩ := match_made.1 hmade
    have hkept : node.comment? = none := create_noComment (find?_directives hmade.found).1 bs node
      hmade.created
    have hiff := made_comments hmade
    have hdrop := drop_of_getElem? here
    have htokens : commentTexts ((tokens.drop i).take consumed) =
        commentTexts ((tokens.drop (i + 1)).take (consumed - 1)) := by
      rw [hdrop, ← Nat.sub_add_cancel hpos, List.take_succ_cons, Nat.add_sub_cancel,
        commentTexts_cons hother]
    rw [Segment.tokens, htokens, hdrop, show Segment.kept (.directive node _ _) = [] from
      congrArg Option.toList hkept]
    -- it keeps nothing, which is right exactly if it has no comment
    by_cases hswallows : Swallows (t :: tokens.drop (i + 1))
    · exact .inr ⟨rfl, hiff.2 hswallows, hswallows⟩
    · exact .inl ⟨(Classical.not_not.1 (mt hiff.1 hswallows)).symm, hswallows⟩
  · have hiff := rejected_comments hline here hother hfailed hresumes
    rw [Segment.tokens]
    by_cases hswallows : Swallows (tokens.drop i)
    · exact .inr ⟨rfl, hiff.2 hswallows, hswallows⟩
    · exact .inl ⟨(Classical.not_not.1 (mt hiff.1 hswallows)).symm, hswallows⟩

theorem Cut.length_kept_le {g : Segment Command} (h : Cut tokens i g j)
    (hline : ∀ c ∈ tokens, c.isComment = true → '\n' ∉ c.text.toList) :
    g.kept.length ≤ (commentTexts g.tokens).length := by
  rcases h.kept_cases hline with ⟨heq, -⟩ | ⟨hnil, -, -⟩
  · exact Nat.le_of_eq (congrArg List.length heq)
  · rw [hnil]
    exact Nat.zero_le _

namespace Cuts

variable {segments : List (Segment Command)}

theorem length_kept_le (h : Cuts tokens i segments j)
    (hline : ∀ c ∈ tokens, c.isComment = true → '\n' ∉ c.text.toList) :
    (segments.flatMap Segment.kept).length ≤
      (commentTexts (segments.flatMap Segment.tokens)).length := by
  induction h with
  | nil => exact Nat.le_refl _
  | cons cut _ ih =>
    rw [List.flatMap_cons, List.flatMap_cons, commentTexts_append, List.length_append,
      List.length_append]
    exact Nat.add_le_add (cut.length_kept_le hline) ih

/-- **A whole run:** consecutive cuts keep all comments exactly if none of them swallows one. -/
theorem kept_iff (h : Cuts tokens i segments j) (hj : j = tokens.length)
    (hline : ∀ c ∈ tokens, c.isComment = true → '\n' ∉ c.text.toList) :
    segments.flatMap Segment.kept = commentTexts (segments.flatMap Segment.tokens) ↔
      ∀ gs, gs <:+ segments → ¬ Swallows (gs.flatMap Segment.tokens) := by
  induction h with
  | nil =>
    refine ⟨fun _ gs hgs => ?_, fun _ => rfl⟩
    rw [List.suffix_nil.1 hgs]
    rintro ⟨⟩
  | @cons i j k g segments cut cuts ih =>
    subst hj
    have hall := (Cuts.cons cut cuts).flatMap_tokens
    rw [List.take_of_length_le (by rw [List.length_drop])] at hall
    have hle := cuts.length_kept_le hline
    have hfirst := cut.length_kept_le hline
    -- both parts are kept, since neither can have more comments than there are
    have hparts : (g :: segments).flatMap Segment.kept =
          commentTexts ((g :: segments).flatMap Segment.tokens) ↔
        g.kept = commentTexts g.tokens ∧
          segments.flatMap Segment.kept = commentTexts (segments.flatMap Segment.tokens) := by
      rw [List.flatMap_cons, List.flatMap_cons, commentTexts_append]
      constructor
      · intro heq
        have hlen := congrArg List.length heq
        rw [List.length_append, List.length_append] at hlen
        exact List.append_inj heq (by omega)
      · rintro ⟨hg, hs⟩
        rw [hg, hs]
    -- for the first segment the two cases are those of a single cut
    have hkept : g.kept = commentTexts g.tokens ↔ ¬ Swallows (tokens.drop i) := by
      rcases cut.kept_cases hline with ⟨heq, hnot⟩ | ⟨hnil, hne, hswallows⟩
      · exact ⟨fun _ => hnot, fun _ => heq⟩
      · exact ⟨fun heq => absurd (heq.symm.trans hnil) hne, fun hnot => absurd hswallows hnot⟩
    rw [hparts, hkept, ih rfl]
    constructor
    · rintro ⟨hhere, hlater⟩ gs hgs
      rcases List.suffix_cons_iff.1 hgs with rfl | hgs
      · rwa [hall]
      · exact hlater gs hgs
    · intro hnone
      refine ⟨?_, fun gs hgs => hnone gs (List.suffix_cons_iff.2 (.inr hgs))⟩
      have hhere := hnone (g :: segments) (List.suffix_refl _)
      rwa [hall] at hhere

end Cuts

/-! ## Scripts -/

/-- The comments among the commands are those that the segments keep. -/
theorem filterMap_comment?_commands (s : Script Command) :
    s.commands.filterMap Command.comment? = s.segments.flatMap Segment.kept := by
  rw [Script.commands, Script.understood, List.filterMap_map, List.filterMap_filterMap,
    List.filterMap_eq_flatMap_toList]
  rfl

/-- **Which comments are kept:** the comments among the commands are all comments of the source, in
order, exactly if no segment is where a comment is swallowed. -/
theorem comments_kept_iff {source : String} {s : Script Command}
    (h : parse .bare source = .ok s) :
    s.commands.filterMap Command.comment? = commentTexts (tokenize .bare source) ↔
      ∀ gs, gs <:+ s.segments → ¬ Swallows (gs.flatMap Segment.tokens) := by
  have hcuts := cuts_of_parse h
  have hcovered := hcuts.flatMap_tokens
  rw [List.drop_zero, Nat.sub_zero, List.take_length] at hcovered
  have hlexed := wellLexed_texts .bare (blankSeparators source.toList)
  rw [← map_text_tokenize] at hlexed
  have hkept := hcuts.kept_iff rfl fun c hc hcomment =>
    lineFeed_not_mem_of_wellLexed hlexed (List.mem_map_of_mem hc) (head?_of_isComment hcomment)
  rwa [hcovered, ← filterMap_comment?_commands] at hkept

/-- A script with a comment where a parameter is expected, which is kept. -/
def keptScript : Script Command := ⟨[
  .rejected (.about ⟨.comment, "# later", 1, 9⟩ "compress"
      "compress: Invalid command arguments \x7b# later\x7d") [⟨.word, "compress", 1, 0⟩],
  .comment (.comment "# later") ⟨.comment, "# later", 1, 9⟩,
  .directive (.convert "mp4") "convert to mp4"
    [⟨.word, "convert", 2, 0⟩, ⟨.word, "to", 2, 8⟩, ⟨.word, "mp4", 2, 11⟩]]⟩

theorem comments_kept_iff_keptScript :
    keptScript.commands.filterMap Command.comment? = ["# later"] ∧
      ∀ gs, gs <:+ keptScript.segments → ¬ Swallows (gs.flatMap Segment.tokens) :=
  ⟨by decide, (@comments_kept_iff "compress # later\nconvert to mp4" keptScript
    (by decide +kernel)).1 (by decide +kernel)⟩

/-- **Not every comment is kept:** one with the ending of a media file is read as a file, and one
that stands where a trim starts is lost with it. -/
theorem comments_not_kept :
    (parse .bare "input #holiday.mp4").toOption.map Script.commands =
        some [.input "#holiday.mp4" (some "#holiday.mp4")] ∧
      (parse .bare "trim from # later\nto 5 x").toOption.map Script.commands = some [] ∧
      ¬ ∀ source s, parse .bare source = .ok s →
        s.commands.filterMap Command.comment? = commentTexts (tokenize .bare source) := by
  refine ⟨by decide +kernel, by decide +kernel, fun hall => ?_⟩
  have hkept := hall "input #holiday.mp4"
    ⟨[.directive (.input "#holiday.mp4" (some "#holiday.mp4")) "input #holiday.mp4"
      [⟨.word, "input", 1, 0⟩, ⟨.comment, "#holiday.mp4", 1, 6⟩]]⟩ (by decide +kernel)
  exact absurd hkept (by decide +kernel)

end ClipScript
