/-
# What diagnostics point at

A diagnostic of a script blames one token (`Blames`). A directive with an unknown keyword,
with too few tokens or with parameters that are refused is blamed on its keyword. A
directive with a token that does not fit is blamed on that token: it stands at a required
slot, and the slots before it are required too and have taken the tokens before it. That
is so because the optional slots of a directive come last (`optionalLast_directives`).

Diagnostics are in the order of their tokens. A run of cuts carries this: a directive that
is rejected at `i` blames a token at or behind `i` and before the place where reading is
taken up again. That place can be the very token that is blamed, but then this is a comment
and is cut off by itself, so that no other directive starts there (`Cut.blames`,
`Cuts.diagnostics`). With the places of the tokens this is what a script says about its
source (`Script.Locates`).
-/
import ClipScript.Proofs.Script.Cuts
import ClipScript.Proofs.Token.Places

set_option autoImplicit false

namespace ClipScript

variable {keyword : Token} {rest : List Token}

/-! ## Tokens that do not fit -/

/-- **Optional slots come last** in a directive. -/
theorem optionalLast_directives : ∀ p ∈ directivePatterns,
    p.ordered.Pairwise fun s t => s.optional = true → t.optional = true := by
  decide +kernel

/-- **Where a walk is stuck,** if the optional slots come last: at a required slot whose text does
not fit, behind required slots whose texts do. -/
theorem walk_stuck {slots : List Slot} {texts : List String} {bs : Bindings} {c place : Nat}
    (hpos : Consecutive c slots)
    (hlast : slots.Pairwise fun s t => s.optional = true → t.optional = true)
    (h : walk (parts slots) texts bs c = .stuck place) :
    ∃ n slot, place = c + n ∧ slots[n]? = some slot ∧ slot.optional = false ∧
      (∀ s ∈ slots.take n, s.optional = false) ∧ fits (slots.take n) texts = true ∧
      ∀ t, texts[n]? = some t → slot.shape.accepts t = false := by
  induction slots generalizing texts bs c with
  | nil =>
    rw [parts, walk] at h
    cases h
  | cons s ss ih =>
    obtain ⟨hfirst, hlater⟩ := List.pairwise_cons.1 hlast
    by_cases hopt : s.optional = true
    · -- if the first slot is optional all are, and no walk along those is stuck
      obtain ⟨t, ht, hreq, -⟩ := walk_stuck_le (s :: ss) texts bs c 0 hpos h
      have hoptional : t.optional = true := by
        rcases List.mem_cons.1 ht with rfl | ht
        · exact hopt
        · exact hfirst t ht hopt
      rw [hoptional] at hreq
      cases hreq
    · rw [Bool.not_eq_true] at hopt
      rw [parts, if_neg (by simp [hopt])] at h
      rcases texts with _ | ⟨t, texts⟩
      · rw [walk, Walk.stuck.injEq] at h
        exact ⟨0, s, h.symm, rfl, hopt, by simp, rfl, by simp⟩
      · rw [walk] at h
        by_cases ha : s.shape.accepts t = true
        · rw [if_pos ha] at h
          obtain ⟨n, slot, rfl, hslot, hreq, hall, hfits, hrejects⟩ :=
            ih (consecutive_cons.1 hpos).2 hlater h
          refine ⟨n + 1, slot, by omega, hslot, hreq, ?_, ?_, hrejects⟩
          · rw [List.take_succ_cons]
            exact List.forall_mem_cons.2 ⟨hopt, hall⟩
          · rw [List.take_succ_cons, fits, ha, hfits]
            rfl
        · rw [if_neg ha, Walk.stuck.injEq] at h
          refine ⟨0, s, h.symm, rfl, hopt, by simp, rfl, ?_⟩
          rintro _ ⟨⟩
          simpa using ha

/-! ## The token to blame -/

/-- **The token that is blamed** for a directive that failed. -/
inductive Blames (keyword : Token) (rest : List Token) : Diagnostic → Token → Prop where
  /-- No pattern has the keyword. -/
  | unknown (missing : directives.find? keyword.text = none) :
    Blames keyword rest
      (.about keyword keyword.text ("Unknown command: " ++ keyword.text)) keyword
  /-- There are fewer tokens than the directive must have. -/
  | incomplete {p : Pattern Command} (found : directives.find? keyword.text = some p)
      (short : rest.length < p.required) :
    Blames keyword rest (.about keyword p.name ("Incomplete command: " ++ p.name)) keyword
  /-- The first token that does not fit. -/
  | misfit {p : Pattern Command} {n : Nat} {s : Slot} {t : Token}
      (found : directives.find? keyword.text = some p) (complete : p.required ≤ rest.length)
      (slot : p.ordered[n]? = some s) (here : rest[n]? = some t)
      (required : ∀ s ∈ p.ordered.take (n + 1), s.optional = false)
      (before : fits (p.ordered.take n) (rest.map Token.text) = true)
      (rejects : s.shape.accepts t.text = false) :
    Blames keyword rest (.about t p.name
      (p.name ++ ": Invalid command arguments \x7b" ++ t.text ++ "\x7d")) t
  /-- All tokens fit, but the parameters are refused. -/
  | refused {p : Pattern Command} {bs : Bindings} {used : Nat} {detail : Option String}
      (found : directives.find? keyword.text = some p) (complete : p.required ≤ rest.length)
      (walked : p.walkFrom (rest.map Token.text) = .done bs used)
      (refused : p.validate bs = .ok (.refused detail)) :
    Blames keyword rest (.about keyword p.name
      ("Params didn't validate: \x7b" ++ spaced ((keyword :: rest).take used) ++ "\x7d") detail)
      keyword

/-- The place that a diagnostic gives. -/
def Diagnostic.place? (d : Diagnostic) : Option Place :=
  d.line.bind fun line => d.offset.map (Place.mk line)

/-- A diagnostic has the text and the place of the token that it blames. -/
theorem Blames.points {d : Diagnostic} {t : Token} (h : Blames keyword rest d t) :
    d.token = some t.text ∧ d.place? = some t.place := by
  rcases h with _ | _ | _ | _ <;> exact ⟨rfl, rfl⟩

/-- **A directive that failed** blames its keyword, or the token at which it failed. -/
theorem exists_blames {d : Diagnostic} {failedAt : Nat}
    (h : directives.match keyword rest = .ok (.failed d failedAt)) :
    ∃ t n, Blames keyword rest d t ∧ (keyword :: rest)[n]? = some t ∧
      (n = 0 ∨ 0 < n ∧ n = failedAt) := by
  have hends := match_ends keyword rest
  rw [h] at hends
  rcases hends with hmissing | ⟨hfound, hshort⟩ |
    @⟨p, place, t, hfound, hcomplete, hwalked, hhere⟩ | ⟨hfound, hcomplete, hwalked, hrefused⟩
  · exact ⟨keyword, 0, .unknown hmissing, rfl, .inl rfl⟩
  · exact ⟨keyword, 0, .incomplete hfound hshort, rfl, .inl rfl⟩
  · have hp := (find?_directives hfound).1
    obtain ⟨n, slot, rfl, hslot, hreq, hall, hfits, hrejects⟩ :=
      walk_stuck (wellPlaced_directives p hp).consecutive (optionalLast_directives p hp) hwalked
    rw [Nat.add_comm, List.getElem?_cons_succ] at hhere
    have hrequired : ∀ s ∈ p.ordered.take (n + 1), s.optional = false := by
      intro s hs
      rw [List.take_add_one, hslot, List.mem_append] at hs
      rcases hs with hs | hs
      · exact hall s hs
      · rwa [List.mem_singleton.1 hs]
    have hrejected : slot.shape.accepts t.text = false :=
      hrejects t.text (by rw [List.getElem?_map, hhere]; rfl)
    refine ⟨t, n + 1, .misfit hfound hcomplete hslot hhere hrequired hfits hrejected, hhere, ?_⟩
    exact .inr ⟨n.succ_pos, Nat.add_comm n 1⟩
  · exact ⟨keyword, 0, .refused hfound hcomplete hwalked hrefused, rfl, .inl rfl⟩

/-! ## Diagnostics in order -/

variable {tokens : List Token} {i j : Nat}

/-- Reading is taken up again behind the token at fault, or at it if it is a comment. -/
theorem Resumes.cases_fault {failedAt : Nat} (h : Resumes tokens i failedAt j) :
    i + failedAt < j ∨
      i + failedAt = j ∧ ∀ t, tokens[i + failedAt]? = some t → t.isComment = true := by
  cases h with
  | here _ hfault hcomment =>
    refine .inr ⟨rfl, fun t ht => ?_⟩
    rw [hfault, Option.some.injEq] at ht
    rwa [← ht]
  | behind _ hlt => exact .inl hlt

/-- A rejected segment is a directive that failed. -/
theorem Cut.of_rejected {d : Diagnostic} {ts : List Token} (h : Cut tokens i (.rejected d ts) j) :
    ∃ keyword failedAt, tokens[i]? = some keyword ∧ keyword.isComment = false ∧
      directives.match keyword (tokens.drop (i + 1)) = .ok (.failed d failedAt) ∧
      Resumes tokens i failedAt j := by
  cases h with
  | rejected hhere hother hfailed _ hresumes =>
    exact ⟨_, _, hhere, hother, hfailed, hresumes⟩

/-- **What a rejected directive blames** stands before the next segment, or is the comment that the
next segment is. -/
theorem Cut.blames {d : Diagnostic} {ts : List Token} (h : Cut tokens i (.rejected d ts) j) :
    ∃ keyword t n, tokens[i]? = some keyword ∧ keyword.isComment = false ∧
      Blames keyword (tokens.drop (i + 1)) d t ∧ tokens[i + n]? = some t ∧
      (i + n < j ∨ i + n = j ∧ 0 < n ∧ t.isComment = true) := by
  obtain ⟨keyword, failedAt, hhere, hother, hfailed, hresumes⟩ := h.of_rejected
  obtain ⟨t, n, hblames, ht, hn⟩ := exists_blames hfailed
  rw [← drop_of_getElem? hhere, List.getElem?_drop] at ht
  refine ⟨keyword, t, n, hhere, hother, hblames, ht, ?_⟩
  rcases hn with rfl | ⟨hpos, rfl⟩
  · exact .inl hresumes.lt
  · rcases hresumes.cases_fault with hlt | ⟨heq, hcomment⟩
    · exact .inl hlt
    · exact .inr ⟨heq, hpos, hcomment t ht⟩

/-- **A diagnostic that stands from `i` on:** at a token that is not in front of `i`, and not a
comment there. -/
def Diagnostic.StandsFrom (tokens : List Token) (i : Nat) (d : Diagnostic) : Prop :=
  ∃ k t, i ≤ k ∧ tokens[k]? = some t ∧ (k = i → t.isComment = false) ∧
    d.token = some t.text ∧ d.place? = some t.place

/-- A diagnostic at a token in front of that of another. -/
def Diagnostic.StandsBefore (tokens : List Token) (d e : Diagnostic) : Prop :=
  ∃ (k l : Nat) (t u : Token), k < l ∧ tokens[k]? = some t ∧ tokens[l]? = some u ∧
    d.place? = some t.place ∧ e.place? = some u.place

theorem Diagnostic.StandsFrom.mono {d : Diagnostic} (h : d.StandsFrom tokens j) (hlt : i < j) :
    d.StandsFrom tokens i := by
  obtain ⟨k, t, hle, ht, -, hd⟩ := h
  exact ⟨k, t, by omega, ht, fun hk => absurd hk (by omega), hd⟩

/-- **The diagnostics of consecutive cuts** stand from the first cut on, one behind the other. -/
theorem Cuts.diagnostics {segments : List (Segment Command)} (h : Cuts tokens i segments j) :
    (∀ d ∈ segments.filterMap Segment.diagnostic?, d.StandsFrom tokens i) ∧
      (segments.filterMap Segment.diagnostic?).Pairwise (Diagnostic.StandsBefore tokens) := by
  induction h with
  | nil => exact ⟨fun d hd => (List.not_mem_nil hd).elim, .nil⟩
  | @cons i j k segment segments cut cuts ih =>
    obtain ⟨hlater, hpairwise⟩ := ih
    have hbehind : ∀ d ∈ segments.filterMap Segment.diagnostic?, d.StandsFrom tokens i :=
      fun d hd => (hlater d hd).mono cut.lt
    rcases segment with ⟨node, t⟩ | ⟨node, source, ts⟩ | ⟨d, ts⟩
    · rw [List.filterMap_cons_none rfl]
      exact ⟨hbehind, hpairwise⟩
    · rw [List.filterMap_cons_none rfl]
      exact ⟨hbehind, hpairwise⟩
    · obtain ⟨keyword, t, n, hhere, hother, hblames, ht, hn⟩ := cut.blames
      obtain ⟨htoken, hplace⟩ := hblames.points
      rw [show (Segment.rejected d ts :: segments).filterMap Segment.diagnostic? =
        d :: segments.filterMap Segment.diagnostic? from rfl]
      constructor
      · refine List.forall_mem_cons.2 ⟨⟨i + n, t, by omega, ht, fun hk => ?_, htoken, hplace⟩,
          hbehind⟩
        obtain rfl : n = 0 := by omega
        rw [Nat.add_zero, hhere, Option.some.injEq] at ht
        rwa [← ht]
      · refine List.pairwise_cons.2 ⟨fun e he => ?_, hpairwise⟩
        obtain ⟨l, u, hle, hu, hcomment, -, hplace'⟩ := hlater e he
        refine ⟨i + n, l, t, u, ?_, ht, hu, hplace, hplace'⟩
        rcases hn with hlt | ⟨heq, -, hiscomment⟩
        · omega
        · -- at the token that is blamed a comment starts, and no directive
          rcases Nat.lt_or_eq_of_le hle with hlt | rfl
          · omega
          · rw [heq, hu, Option.some.injEq] at ht
            rw [← ht, hcomment rfl] at hiscomment
            cases hiscomment

/-- A rejected segment among consecutive cuts is a cut at the token behind the segments before
it. -/
theorem Cuts.exists_cut_of_append {before after : List (Segment Command)}
    {segment : Segment Command} (h : Cuts tokens i (before ++ segment :: after) j) :
    ∃ k l, tokens.drop i = before.flatMap Segment.tokens ++ tokens.drop k ∧
      Cut tokens k segment l := by
  induction before generalizing i with
  | nil =>
    rcases h with _ | ⟨hcut, -⟩
    exact ⟨i, _, rfl, hcut⟩
  | cons g before ih =>
    rcases h with _ | @⟨_, m, _, _, _, hcut, hcuts⟩
    obtain ⟨k, l, hdrop, hsegment⟩ := ih hcuts
    refine ⟨k, l, ?_, hsegment⟩
    have hlt := hcut.lt
    rw [List.flatMap_cons, List.append_assoc, ← hdrop, hcut.tokens_eq]
    conv_lhs => rw [← List.take_append_drop (m - i) (tokens.drop i)]
    rw [List.drop_drop, Nat.add_sub_of_le (Nat.le_of_lt hlt)]

/-! ## Scripts -/

variable {style : CommentStyle} {source : String}

/-- **A script that locates what is wrong with its source:** each diagnostic has a token and a
place, and the source with its separators as spaces has that token at that place; what a rejected
directive is blamed on is its keyword, or its first token that does not fit; and the places
increase. -/
structure Script.Locates (s : Script Command) (style : CommentStyle) (source : String) : Prop where
  points : ∀ d ∈ s.diagnostics, ∃ token place, d.token = some token ∧ d.place? = some place ∧
    PointsAt (blankSeparators source.toList) place token.toList
  blames : ∀ before d ts after, s.segments = before ++ .rejected d ts :: after →
    ∃ keyword rest t, tokenize style source = before.flatMap Segment.tokens ++ keyword :: rest ∧
      Blames keyword rest d t ∧ d.token = some t.text ∧ d.place? = some t.place
  increasing : s.diagnostics.Pairwise fun d e =>
    ∃ p q, d.place? = some p ∧ e.place? = some q ∧ p.Before q

/-- **Diagnostics point at the source, in order.** -/
theorem locates_of_parse {s : Script Command} (h : parse style source = .ok s) :
    s.Locates style source := by
  have hcuts := cuts_of_parse h
  obtain ⟨hstand, hpairwise⟩ := hcuts.diagnostics
  constructor
  case points =>
    intro d hd
    obtain ⟨k, t, -, ht, -, htoken, hplace⟩ := hstand d hd
    exact ⟨t.text, t.place, htoken, hplace, pointsAt_of_mem_tokenize (List.mem_of_getElem? ht)⟩
  case blames =>
    intro before d ts after hsegments
    rw [hsegments] at hcuts
    obtain ⟨k, l, hdrop, hcut⟩ := hcuts.exists_cut_of_append
    obtain ⟨keyword, t, n, hhere, -, hblames, -, -⟩ := hcut.blames
    refine ⟨keyword, _, t, ?_, hblames, hblames.points⟩
    rwa [List.drop_zero, drop_of_getElem? hhere] at hdrop
  case increasing =>
    refine hpairwise.imp ?_
    rintro d e ⟨k, l, t, u, hlt, ht, hu, hd, he⟩
    refine ⟨t.place, u.place, hd, he, ?_⟩
    obtain ⟨hk, rfl⟩ := List.getElem?_eq_some_iff.1 ht
    obtain ⟨hl, rfl⟩ := List.getElem?_eq_some_iff.1 hu
    exact List.pairwise_iff_getElem.1 (pairwise_tokenize style source) k l hk hl hlt

/-- A source with something wrong of every kind, where one directive fails at a comment and another
at a text over two lines. -/
def wrongSource : String :=
  "wobble\ntrim from 1 #then\ncrop 5px of left; add_text \"a\nb\" nowhere\n" ++
    "remove_frames every 1; fade in"

/-- What its diagnostics point at. -/
def wrongPlaces : List (Option String × Option Place) :=
  [(some "wobble", some ⟨1, 0⟩), (some "#then\n", some ⟨2, 12⟩), (some "of", some ⟨3, 9⟩),
    (some "\"a\nb\"", some ⟨3, 27⟩), (some "remove_frames", some ⟨5, 0⟩),
    (some "fade", some ⟨5, 23⟩)]

theorem locates_of_parse_wrongSource :
    ∃ s, parse .withLineFeed wrongSource = .ok s ∧
      s.diagnostics.map (fun d => (d.token, d.place?)) = wrongPlaces ∧
      s.Locates .withLineFeed wrongSource := by
  have hplaces : (parse .withLineFeed wrongSource).toOption.map (fun s =>
      s.diagnostics.map fun d => (d.token, d.place?)) = some wrongPlaces := by
    decide +kernel
  rcases hs : parse .withLineFeed wrongSource with f | s
  · rw [hs] at hplaces
    cases hplaces
  · rw [hs] at hplaces
    exact ⟨s, rfl, Option.some.inj hplaces, locates_of_parse hs⟩

end ClipScript
