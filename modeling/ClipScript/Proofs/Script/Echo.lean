/-
# Parsing what was echoed

A script echoes the text of each command. Parsing these texts again, or any of them in
their order, gives the commands back. What makes this true is that a segment that is
understood is so for its texts alone (`Says`): where its tokens stand does not matter,
and neither does what follows, as long as that starts a segment of its own.

Two things remain. The texts have to be cut into the same tokens again, which
`Proofs.Token.Lexemes` shows for lexemes that are laid out; and a snippet with a line
feed after it has to be such a layout. It is, because a comment in a directive is the
last of its texts, and a comment without its line feed the last of the source.
-/
import ClipScript.Proofs.Directives.Comments
import ClipScript.Proofs.Script.Cuts
import Mathlib.Data.List.Flatten

set_option autoImplicit false

namespace ClipScript

variable {style : CommentStyle} {ws after : List String}

/-! ## What texts say -/

/-- Whether a text is a comment. -/
def isCommentText (w : String) : Prop := w.toList.head? = some '#'

/-- **What some texts say by themselves:** a comment, or a directive with nothing left over. -/
inductive Says : List String → Command × String → Prop where
  | comment {w : String} (comment : isCommentText w) : Says [w] (.comment w, w)
  | directive {keyword : String} {ws : List String} {p : Pattern Command} {bs : Bindings}
      {node : Command} (other : ¬ isCommentText keyword)
      (found : directives.find? keyword = some p)
      (walked : p.walkFrom ws = .done bs (ws.length + 1))
      (accepted : p.validate bs = .ok .accepted) (created : p.create bs = .ok node) :
    Says (keyword :: ws) (node, String.intercalate " " (keyword :: ws))

/-- Whether a text can start a segment. -/
def StartsText (w : String) : Prop := isCommentText w ∨ directives.hasKeyword w = true

theorem isComment_iff {t : Token} : t.isComment = true ↔ isCommentText t.text := by
  rw [Token.isComment, decide_eq_true_iff, isCommentText]

theorem starts_iff {t : Token} : directives.starts t = true ↔ StartsText t.text := by
  rw [Registry.starts, Bool.or_eq_true, isComment_iff, StartsText]

namespace Says

variable {x : Command × String}

/-- Texts that say something start with one that can. -/
theorem head (h : Says ws x) : ∃ w ws', ws = w :: ws' ∧ StartsText w := by
  -- a comment starts a segment by itself, and a directive does with its keyword
  rcases h with hcomment | @⟨keyword, ws', p, _, _, _, hfound, _, _, _⟩
  · exact ⟨_, [], rfl, .inl hcomment⟩
  · exact ⟨keyword, ws', rfl, .inr (hasKeyword_directives.2 ⟨p, hfound⟩)⟩

theorem ne_nil (h : Says ws x) : ws ≠ [] := by
  obtain ⟨w, ws', rfl, -⟩ := h.head
  exact List.cons_ne_nil w ws'

/-- The text of what is said is its texts with one space between two. -/
theorem snd_eq (h : Says ws x) : x.2 = String.intercalate " " ws := by
  rcases h with _ | _
  · rw [String.intercalate_singleton]
  · rfl

/-- **A comment comes last** in what says something. -/
theorem pairwise_not_comment (h : Says ws x) : ws.Pairwise fun w _ => ¬ isCommentText w := by
  rcases h with _ | @⟨keyword, ws, p, bs, node, hother, hfound, hwalked, haccepted, _⟩
  · exact List.pairwise_singleton ..
  · refine List.pairwise_cons.2 ⟨fun _ _ => hother, ?_⟩
    refine List.pairwise_iff_getElem.2 fun i j hi hj hij hcomment => ?_
    -- the only comment there can be is all that follows the keyword
    obtain ⟨-, hws⟩ := comment_of_walkFrom_done (find?_directives hfound).1 hwalked haccepted
      (List.getElem_mem hi) hcomment
    have hlen := congrArg List.length hws
    rw [List.length_singleton] at hlen
    omega

end Says

/-! ## From segments to texts -/

/-- **A segment that is understood** says so by its texts. -/
theorem Cut.says {tokens : List Token} {i j : Nat} {g : Segment Command} {x : Command × String}
    (h : Cut tokens i g j) (hx : g.understood? = some x) :
    Says (g.tokens.map Token.text) x := by
  rcases h with ⟨-, hcomment⟩ | @⟨t, node, consumed, hhere, hother, _, hmade, hpos, hwithin⟩ | _
  · obtain rfl := Option.some.inj hx
    exact .comment (isComment_iff.1 hcomment)
  · obtain rfl := Option.some.inj hx
    obtain ⟨p, bs, hmade⟩ := match_made.1 hmade
    obtain ⟨hi, rfl⟩ := List.getElem?_eq_some_iff.1 hhere
    -- the keyword comes first, and what the directive used goes with it
    have htake : (tokens.drop i).take consumed =
        tokens[i] :: (tokens.drop (i + 1)).take (consumed - 1) := by
      rw [List.drop_eq_getElem_cons hi, ← Nat.sub_add_cancel hpos, List.take_succ_cons,
        Nat.add_sub_cancel]
    have hlen : ((tokens.drop (i + 1)).take (consumed - 1)).length = consumed - 1 := by
      rw [List.length_take, List.length_drop]
      omega
    -- the walk over these texts alone comes to the same
    have hwalked := walkFrom_take hmade.walked
    rw [← List.map_take] at hwalked
    rw [Segment.tokens, spaced, htake, List.map_cons]
    refine .directive (by rwa [← isComment_iff, Bool.not_eq_true]) hmade.found ?_ hmade.accepted
      hmade.created
    rw [List.length_map, hlen, Nat.sub_add_cancel hpos]
    exact hwalked
  · cases hx

theorem Cuts.says {tokens : List Token} {i j : Nat} {segments : List (Segment Command)}
    (h : Cuts tokens i segments j) {g : Segment Command} (hg : g ∈ segments)
    {x : Command × String} (hx : g.understood? = some x) : Says (g.tokens.map Token.text) x := by
  induction h with
  | nil => cases hg
  | cons cut _ ih =>
    rcases List.mem_cons.1 hg with rfl | hg
    · exact cut.says hx
    · exact ih hg

/-! ## From texts to segments -/

/-- **One step back:** tokens whose texts say something, with others behind them that start a
segment, are cut behind these texts. -/
theorem Says.segments {x : Command × String} (h : Says ws x) {front back : List Token}
    (hfront : front.map Token.text = ws) (hback : ∀ t ∈ back.head?, directives.starts t = true) :
    ∃ g : Segment Command, g.understood? = some x ∧ g.diagnostic? = none ∧
      directives.segments (front ++ back) = (directives.segments back).map (g :: ·) := by
  rcases h with hcomment | @⟨keyword, ws, p, bs, node, hother, hfound, hwalked, haccepted, hcreated⟩
  · obtain ⟨t, rest, rfl, rfl, hrest⟩ := List.map_eq_cons_iff.1 hfront
    obtain rfl := List.map_eq_nil_iff.1 hrest
    refine ⟨.comment (.comment t.text) t, rfl, rfl, ?_⟩
    rw [List.singleton_append, Registry.segments, if_pos (isComment_iff.2 hcomment)]
    rfl
  · obtain ⟨t, rest, rfl, rfl, hrest⟩ := List.map_eq_cons_iff.1 hfront
    have hp := (find?_directives hfound).1
    have hlen : rest.length = ws.length := by rw [← hrest, List.length_map]
    -- what follows starts a segment, so no slot that need not be there takes it
    have hwalked' : p.walkFrom ((rest ++ back).map Token.text) = .done bs (ws.length + 1) := by
      have hcongr := @walk_congr (parts p.ordered) ws [] (back.map Token.text) [] bs 1
        (by rw [List.append_nil, Nat.add_comm]; exact hwalked) ?_
      · rw [List.map_append, hrest, Nat.add_comm]
        exact hcongr
      · intro w hw s hs
        rw [List.head?_map, Option.mem_def, Option.map_eq_some_iff] at hw
        obtain ⟨t', ht', rfl⟩ := hw
        exact optional_rejects_start hp hs (hback t' ht')
    -- a walk that is done had a text for every slot that must be there
    have hcomplete : p.required ≤ (rest ++ back).length := by
      have hrequired := walk_required hwalked
      rw [← required_directives p hp] at hrequired
      rw [List.length_append]
      omega
    have hmade : directives.match t (rest ++ back) = .ok (.made node
        (String.intercalate " " (t.text :: ws)) (ws.length + 1)) := by
      refine match_made.2 ⟨p, bs, hfound, hcomplete, hwalked', haccepted, hcreated, ?_⟩
      rw [spaced, List.take_succ_cons, ← hlen, List.take_left, List.map_cons, hrest]
    refine ⟨.directive node (String.intercalate " " (t.text :: ws)) (t :: rest), rfl, rfl, ?_⟩
    rw [List.cons_append, Registry.segments, if_neg (by rwa [isComment_iff]), hmade]
    simp only [bind, Except.bind, Nat.add_sub_cancel, ← hlen, List.take_left, List.drop_left]
    rfl

/-- Texts that say things one after another start with one that can. -/
theorem starts_of_said {gs : List (List String × Command × String)}
    (h : ∀ g ∈ gs, Says g.1 g.2) {tokens : List Token}
    (htexts : tokens.map Token.text = gs.flatMap Prod.fst) :
    ∀ t ∈ tokens.head?, directives.starts t = true := by
  intro t ht
  rcases gs with _ | ⟨g, gs⟩
  · rw [List.map_eq_nil_iff.1 htexts] at ht
    cases ht
  · obtain ⟨w, ws, hw, hstarts⟩ := (h g List.mem_cons_self).head
    obtain ⟨t', ts, rfl, hlt, -⟩ := List.map_eq_cons_iff.1
      (htexts.trans (by rw [List.flatMap_cons, hw, List.cons_append]))
    obtain rfl : t' = t := Option.some.inj ht
    rwa [starts_iff, hlt]

/-- **A whole run back:** tokens whose texts say things one after another are cut into segments
that are all understood, and say these things, whatever starts behind them. -/
theorem segments_append_of_said {gs : List (List String × Command × String)}
    (h : ∀ g ∈ gs, Says g.1 g.2) {front back : List Token}
    (hfront : front.map Token.text = gs.flatMap Prod.fst)
    (hback : ∀ t ∈ back.head?, directives.starts t = true) :
    ∃ segments, segments.filterMap Segment.understood? = gs.map Prod.snd ∧
      segments.filterMap Segment.diagnostic? = [] ∧
      directives.segments (front ++ back) = (directives.segments back).map (segments ++ ·) := by
  induction gs generalizing front with
  | nil =>
    rw [List.map_eq_nil_iff.1 hfront, List.nil_append]
    refine ⟨[], rfl, rfl, ?_⟩
    cases directives.segments back with
    | error f => rfl
    | ok segments => rfl
  | cons g gs ih =>
    -- the texts of the first group are a segment, and the induction has the others
    obtain ⟨first, others, rfl, hfirst, hothers⟩ := List.map_eq_append_iff.1 hfront
    have hgs : ∀ g ∈ gs, Says g.1 g.2 := fun g hg => h g (List.mem_cons_of_mem _ hg)
    obtain ⟨segments, hunderstood, hrejected, hrun⟩ := ih hgs hothers
    have hnext : ∀ t ∈ (others ++ back).head?, directives.starts t = true := by
      intro t ht
      rw [List.head?_append] at ht
      rcases hhead : others.head? with _ | t'
      · rw [hhead] at ht
        exact hback t ht
      · rw [hhead] at ht
        obtain rfl : t' = t := Option.some.inj ht
        exact starts_of_said hgs hothers t' hhead
    obtain ⟨segment, hx, hd, hstep⟩ := (h g List.mem_cons_self).segments hfirst hnext
    refine ⟨segment :: segments, ?_, ?_, ?_⟩
    · rw [List.filterMap_cons_some hx, hunderstood, List.map_cons]
    · rw [List.filterMap_cons_none hd, hrejected]
    · rw [List.append_assoc, hstep, hrun]
      cases directives.segments back with
      | error f => rfl
      | ok later => rfl

theorem segments_of_says {gs : List (List String × Command × String)}
    (h : ∀ g ∈ gs, Says g.1 g.2) {tokens : List Token}
    (htexts : tokens.map Token.text = gs.flatMap Prod.fst) :
    ∃ segments, directives.segments tokens = .ok segments ∧
      segments.filterMap Segment.understood? = gs.map Prod.snd ∧
      segments.filterMap Segment.diagnostic? = [] := by
  obtain ⟨segments, hunderstood, hrejected, hrun⟩ :=
    @segments_append_of_said gs h tokens [] htexts (by simp)
  rw [List.append_nil, Registry.segments] at hrun
  refine ⟨segments, ?_, hunderstood, hrejected⟩
  rw [hrun, Except.map, List.append_nil]

/-! ## From snippets to layouts -/

/-- **Snippets in lines** are a layout of their texts. -/
theorem laid_snippets {gs : List (List String × Command × String)} (hne : gs ≠ [])
    (h : ∀ g ∈ gs, Says g.1 g.2) (hlex : WellLexed style (gs.flatMap Prod.fst)) :
    Laid style (gs.flatMap Prod.fst)
      (String.intercalate "\n" (gs.map fun g => g.2.2)).toList := by
  induction gs with
  | nil => exact absurd rfl hne
  | cons g gs ih =>
    have hg := h g List.mem_cons_self
    have hgs : ∀ g ∈ gs, Says g.1 g.2 := fun g hg => h g (List.mem_cons_of_mem _ hg)
    rw [List.flatMap_cons] at hlex ⊢
    have hfirst := laid_intercalate hg.ne_nil (hlex.sublist (List.sublist_append_left ..))
      hg.pairwise_not_comment
    rw [← hg.snd_eq] at hfirst
    by_cases hnil : gs = []
    · subst hnil
      rw [List.map_singleton, String.intercalate_singleton, List.flatMap_nil, List.append_nil]
      exact hfirst
    · -- more follows, so none of the first texts is an open comment
      obtain ⟨g', hg'⟩ := List.exists_mem_of_ne_nil gs hnil
      obtain ⟨v, hv⟩ := List.exists_mem_of_ne_nil _ (hgs g' hg').ne_nil
      have hclosed : ∀ w ∈ g.1, Lexeme style w.toList := fun w hw =>
        (List.pairwise_append.1 hlex.before).2.2 w hw v (List.mem_flatMap.2 ⟨g', hg', hv⟩)
      rw [List.map_cons, String.intercalate_cons_of_ne_nil (by simpa using hnil),
        String.toList_append, String.toList_append, List.append_assoc]
      exact hfirst.append hclosed (ih hnil hgs (hlex.sublist (List.sublist_append_right ..)))

/-! ## Scripts -/

/-- The texts of the segments that are understood, with what they say. -/
def Segment.said? (g : Segment Command) : Option (List String × Command × String) :=
  g.understood?.map fun x => (g.tokens.map Token.text, x)

/-- What the segments of a script say comes from its tokens in order. -/
theorem flatMap_said_sublist (segments : List (Segment Command)) :
    ((segments.filterMap Segment.said?).flatMap Prod.fst).Sublist
      ((segments.flatMap Segment.tokens).map Token.text) := by
  induction segments with
  | nil => exact List.Sublist.refl _
  | cons g segments ih =>
    rw [List.flatMap_cons, List.map_append]
    cases hx : g.understood? with
    | none =>
      rw [List.filterMap_cons_none (by rw [Segment.said?, hx]; rfl)]
      exact ih.trans (List.sublist_append_right ..)
    | some x =>
      rw [List.filterMap_cons_some (by rw [Segment.said?, hx]; rfl), List.flatMap_cons]
      exact List.Sublist.append (List.Sublist.refl _) ih

theorem understood_eq (r : Script Command) :
    r.understood = (r.segments.filterMap Segment.said?).map Prod.snd := by
  have hsnd : ∀ g : Segment Command, g.said?.map Prod.snd = g.understood? := by
    intro g
    rw [Segment.said?, Option.map_map]
    exact Option.map_id'
  rw [Script.understood, List.map_filterMap]
  exact congrArg (List.filterMap · r.segments) (funext fun g => (hsnd g).symm)

/-- The texts of some tokens of a source, in lines as snippets, are those of the tokens there. -/
theorem map_text_tokenize_snippets {source : String} {gs : List (List String × Command × String)}
    (h : ∀ g ∈ gs, Says g.1 g.2)
    (hsub : (gs.flatMap Prod.fst).Sublist ((tokenize style source).map Token.text)) :
    (tokenize style (String.intercalate "\n" (gs.map fun g => g.2.2))).map Token.text =
      gs.flatMap Prod.fst := by
  by_cases hnil : gs = []
  · subst hnil
    rw [List.map_nil, String.intercalate_nil, List.flatMap_nil, map_text_tokenize]
    -- no snippets are an empty source, which has no tokens
    rw [show blankSeparators "".toList = [] from rfl, texts, pieces]
    rfl
  · rw [map_text_tokenize] at hsub
    exact map_text_tokenize_laid
      (laid_snippets hnil h ((wellLexed_texts style _).sublist hsub))
      fun w hw => not_mem_of_mem_texts (hsub.subset hw)

/-- **Echoed commands parse to themselves:** the texts of some commands of a script, in lines,
are a script of these commands with these texts, and nothing in it is rejected. -/
theorem parse_snippets {style : CommentStyle} {source : String} {r : Script Command}
    (h : parse style source = .ok r) {sub : List (Command × String)}
    (hsub : sub.Sublist (r.commands.zip r.snippets)) :
    ∃ s, parse style (String.intercalate "\n" (sub.map Prod.snd)) = .ok s ∧
      s.commands = sub.map Prod.fst ∧ s.snippets = sub.map Prod.snd ∧
      s.errors = [] ∧ s.diagnostics = [] := by
  have hcuts := cuts_of_parse h
  have hcovered := hcuts.flatMap_tokens
  rw [List.drop_zero, Nat.sub_zero, List.take_length] at hcovered
  rw [r.zip_commands_snippets, understood_eq] at hsub
  obtain ⟨gs, hgs, rfl⟩ := List.sublist_map_iff.1 hsub
  have hsays : ∀ g ∈ gs, Says g.1 g.2 := by
    intro g hg
    obtain ⟨segment, hmem, hsaid⟩ := List.mem_filterMap.1 (hgs.subset hg)
    obtain ⟨x, hx, rfl⟩ := Option.map_eq_some_iff.1 hsaid
    exact hcuts.says hmem hx
  -- the texts that are left are lexemes, as they come from the tokens of the source
  have htokens : (gs.flatMap Prod.fst).Sublist ((tokenize style source).map Token.text) := by
    rw [← hcovered]
    exact (hgs.flatMap Prod.fst).trans (flatMap_said_sublist r.segments)
  have htexts := map_text_tokenize_snippets hsays htokens
  obtain ⟨segments, hok, hunderstood, hrejected⟩ := segments_of_says hsays htexts
  rw [List.map_map]
  refine ⟨⟨segments⟩, ?_, ?_, ?_, ?_, hrejected⟩
  · rw [parse, Registry.parse]
    exact congrArg (Except.map Script.mk) hok
  · rw [Script.commands, Script.understood, hunderstood]
  · rw [Script.snippets, Script.understood, hunderstood, List.map_map]
  · rw [Script.errors, Script.diagnostics, hrejected, List.map_nil]

/-- A script with a comment, a directive that is rejected, and two that are not. -/
def echoedScript : Script Command := ⟨[
  .comment (.comment "# cut") ⟨.comment, "# cut", 1, 0⟩,
  .directive (.compress (.known .video)) "compress video"
    [⟨.word, "compress", 2, 0⟩, ⟨.word, "video", 2, 11⟩],
  .rejected (.about ⟨.word, "foo", 2, 17⟩ "foo" "Unknown command: foo") [⟨.word, "foo", 2, 17⟩],
  .directive (.input "\"a #1.mov\"" (some "a #1.mov")) "input \"a #1.mov\""
    [⟨.word, "input", 3, 0⟩, ⟨.quoted, "\"a #1.mov\"", 3, 6⟩]]⟩

theorem parse_snippets_echoedScript :
    ∃ s, parse .bare "# cut\ninput \"a #1.mov\"" = .ok s ∧
      s.commands = [.comment "# cut", .input "\"a #1.mov\"" (some "a #1.mov")] ∧
      s.snippets = ["# cut", "input \"a #1.mov\""] ∧ s.errors = [] ∧ s.diagnostics = [] :=
  @parse_snippets .bare "# cut\ncompress   video foo\ninput \"a #1.mov\"" echoedScript
    (by decide +kernel)
    [(.comment "# cut", "# cut"),
      (.input "\"a #1.mov\"" (some "a #1.mov"), "input \"a #1.mov\"")]
    (by decide)

end ClipScript
