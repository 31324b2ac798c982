/-
# Parsing does not fail

Parsing comes to a script for every text whose numerals are short enough to be read. At
each token, wherever the directive there is cut off:

* matching looks tokens up in its window only, and at no negative place
  (`SafelyMatched.within`);
* every parameter that a pattern reads is bound to a text (`Settles.bound`,
  `SafelyMatched.reads`);
* the condition and the constructor of a pattern come to a result, so every number in a
  parameter can be read (`Settles.bound`);
* a directive that is rejected has the token at fault among its tokens, so parsing goes on
  from there.

The first three are about one window (`safelyMatched`), and `parse_safe` puts them
together for a script.
-/
import ClipScript.Proofs.Directives.Reading
import ClipScript.Proofs.Matching.Lookups
import ClipScript.Proofs.Script.Cuts
import ClipScript.Proofs.Token.Places

set_option autoImplicit false

namespace ClipScript

open Number Text

/-! ## Matching in a window -/

variable {α : Type}

/-- **What a window comes to** when nothing goes wrong: a token of the window that does not fit,
or parameters of which every one has a text and something can be made. -/
inductive Pattern.Settles (p : Pattern α) (window : List Token) : Binding → Prop where
  | misfit {t : Token} {place : Nat} (here : window[place]? = some t) :
    Settles p window (.mismatch t place)
  | bound {bs : Bindings} {used : Nat} (pos : 1 ≤ used) (le : used ≤ window.length)
      (text : ∀ s ∈ p.slots, ∀ name, s.parameter? = some name → ∃ v, bs.text name = .ok v)
      (validated : ∃ verdict, p.validate bs = .ok verdict)
      (created : ∃ node, p.create bs = .ok node) : Settles p window (.bound bs used)

/-- **A window that is matched safely.** -/
structure Pattern.SafelyMatched (p : Pattern α) (window : List Token) : Prop where
  settles : ∃ b, bindSlots window p.ordered {} = .ok b ∧ p.Settles window b
  /-- What would be found outside the window makes no difference, so nothing is looked up there. -/
  within : ∀ look, RightIn window look →
    bindSlotsBy look window.length p.ordered {} = bindSlots window p.ordered {}
  reads : p.ReadsNamed

/-- **A complete directive is matched safely,** whatever follows its keyword. -/
theorem safelyMatched {p : Pattern Command} (hp : p ∈ directivePatterns) {keyword : Token}
    {rest : List Token} (hkeyword : keyword.text = p.name)
    (hcomplete : p.required < ((keyword :: rest).take (p.reach + 1)).length)
    (hshort : ∀ t ∈ keyword :: rest, ShortNumerals t.text.toList) :
    p.SafelyMatched ((keyword :: rest).take (p.reach + 1)) := by
  have hplaced := wellPlaced_directives p hp
  have hreach := hplaced.length_le_reach
  refine ⟨?_, fun look hlook => Pattern.bindSlotsBy_eq hplaced hcomplete hlook,
    readsNamed_directives p hp⟩
  have hwalk := @bindSlots_eq_walk (keyword :: rest) p.reach p.ordered 0 1 [] hplaced.consecutive
    hplaced.together (by omega)
  rw [List.drop_succ_cons, List.drop_zero] at hwalk
  rw [show ({} : Progress) = ⟨[], 0, 1⟩ from rfl, hwalk]
  have hstop := walk_stop (parts p.ordered) (rest.map Token.text) [] 1
  rw [flatMap_slots_parts, List.length_map] at hstop
  cases hw : walk (parts p.ordered) (rest.map Token.text) [] 1 with
  | stuck place =>
    -- a required slot could have the place, so it is one of the window
    have hle : place ≤ p.required := walkFrom_stuck_le hplaced hw
    have hlt : place < ((keyword :: rest).take (p.reach + 1)).length := by omega
    have hhere := List.getElem?_eq_getElem hlt
    generalize ((keyword :: rest).take (p.reach + 1))[place] = t at hhere
    refine ⟨_, ?_, .misfit hhere⟩
    rw [List.length_take] at hlt
    rw [List.getElem?_take_of_lt (by omega)] at hhere
    rw [Walk.binding, hhere]
  | done bs used =>
    rw [hw, Walk.stop] at hstop
    have hread := @reads_of_walkFrom p (rest.map Token.text) bs used hp hw (by
      rw [← hkeyword, ← List.map_cons, List.forall_mem_map]
      exact hshort)
    refine ⟨_, rfl, .bound hstop.1 ?_ ?_ hread.1 hread.2⟩
    · rw [List.length_take, List.length_cons]
      omega
    · intro s hs name hname
      obtain ⟨v, hv, -⟩ := walkFrom_text (named_directives p hp) hw hs hname
      exact ⟨v, hv⟩

/-! ## Numerals of a script -/

/-- Separators that become spaces leave the numerals as they are. -/
theorem ShortNumerals.blankSeparators {cs : List Char} (h : ShortNumerals cs) :
    ShortNumerals (ClipScript.blankSeparators cs) := by
  intro ds hds hin
  obtain ⟨before, after, heq⟩ := hin
  obtain ⟨front, back, rfl, hfront, -⟩ := List.map_eq_append_iff.1 heq.symm
  obtain ⟨_, es, rfl, -, hes⟩ := List.map_eq_append_iff.1 hfront
  -- a digit comes from itself, since a separator becomes no digit
  have hsame : ∀ c ∈ es, (if c = ';' then ' ' else c) = id c := by
    intro c hc
    rw [id]
    by_cases hsep : c = ';'
    · have hdigit := (isDigits_iff.1 hds).2 ' ' (by
        rw [← hes]
        exact List.mem_map.2 ⟨c, hc, if_pos hsep⟩)
      exact absurd hdigit (by decide)
    · rw [if_neg hsep]
  rw [List.map_congr_left hsame, List.map_id] at hes
  subst hes
  exact h es hds ⟨_, back, rfl⟩

/-- The tokens of a text with short numerals have short numerals. -/
theorem shortNumerals_of_mem_tokenize {style : CommentStyle} {source : String}
    (h : ShortNumerals source.toList) {t : Token} (ht : t ∈ tokenize style source) :
    ShortNumerals t.text.toList := by
  obtain ⟨before, after, htext, -⟩ := exists_of_mem_placeTokens ht
  rw [pieces_flatten] at htext
  exact h.blankSeparators.mono ⟨before, after, htext.symm⟩

/-! ## Parsing -/

/-- **Parsing does not fail** for a text with short numerals: it comes to a script, and at every
token in it, what is complete there is matched safely, and what is rejected has the token at fault
among the tokens of the text. -/
theorem parse_safe (style : CommentStyle) {source : String} (h : ShortNumerals source.toList) :
    (∃ s, parse style source = .ok s) ∧
      ∀ i keyword, (tokenize style source)[i]? = some keyword →
        (∀ p window, directives.find? keyword.text = some p →
          window = ((tokenize style source).drop i).take (p.reach + 1) →
          p.required < window.length → p.SafelyMatched window) ∧
        ∃ outcome, directives.match keyword ((tokenize style source).drop (i + 1)) = .ok outcome ∧
          ∀ d failedAt, outcome = .failed d failedAt →
            i + failedAt < (tokenize style source).length := by
  have hshort : ∀ t ∈ tokenize style source, ShortNumerals t.text.toList := fun t ht =>
    shortNumerals_of_mem_tokenize h ht
  refine ⟨parse_of_short hshort, ?_⟩
  intro i keyword hkeyword
  have hdrop := drop_of_getElem? hkeyword
  have hthere : ∀ t ∈ keyword :: (tokenize style source).drop (i + 1),
      ShortNumerals t.text.toList := by
    rw [← hdrop]
    exact fun t ht => hshort t (List.mem_of_mem_drop ht)
  refine ⟨?_, ?_⟩
  · intro p window hfind hwindow hcomplete
    obtain ⟨hp, hname⟩ := find?_directives hfind
    rw [hdrop] at hwindow
    subst hwindow
    exact safelyMatched hp hname.symm hcomplete hthere
  · have hnone := not_overruns (List.forall_mem_map.2 hthere)
    obtain ⟨outcome, hmatch⟩ := (match_failsFor keyword _).ok_of_not hnone
    refine ⟨outcome, hmatch, ?_⟩
    rintro d failedAt rfl
    have hle := failedAt_le hmatch
    have hlt := (List.getElem?_eq_some_iff.1 hkeyword).1
    rw [List.length_drop] at hle
    omega

/-- A script that ends within the margin of its last directive. -/
def cutShort : String := "compress nothing\nadd_text \"a; b\" at center aligned left with margin"

/-- The directive that is cut off is matched with a lookup that fails outside its window. -/
theorem parse_safe_cutShort :
    ShortNumerals cutShort.toList ∧ (∃ s, parse .bare cutShort = .ok s) ∧
      ∃ b, bindSlotsBy (tokenWithin ((tokenize .bare cutShort).drop 2)) 8
        addTextPattern.ordered {} = .ok b := by
  have hlength : cutShort.toList.length ≤ digitLimit := by decide
  have hshort : ShortNumerals cutShort.toList := fun ds _ hin => hin.length_le.trans hlength
  obtain ⟨hscript, hsafe⟩ := parse_safe .bare hshort
  have hcut : (tokenize .bare cutShort).length = 10 := by decide +kernel
  have hmatched := (hsafe 2 ⟨.word, "add_text", 2, 0⟩ (by decide +kernel)).1 addTextPattern
    ((tokenize .bare cutShort).drop 2) rfl (by decide +kernel) (by decide +kernel)
  obtain ⟨b, hb, -⟩ := hmatched.settles
  refine ⟨hshort, hscript, b, ?_⟩
  have hwithin := hmatched.within _ (rightIn_tokenWithin _)
  rwa [List.length_drop, hcut, hb] at hwithin

end ClipScript
