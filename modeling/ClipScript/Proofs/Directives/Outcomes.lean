/-
# The outcomes of directives

`Registry.match` is opened once, in `match_ends`: a directive of the language ends in
one of six ways, and each of them says what the pattern of its keyword came to. What
scripts need to know is then read off the way a directive ended:

* if it is made, it uses its keyword and no more tokens than there are (`Made.pos`,
  `Made.consumed_le`);
* if it failed, it did so at its keyword or at one of the tokens after it
  (`failedAt_le`).
-/
import ClipScript.Proofs.Directives.Slots

set_option autoImplicit false

namespace ClipScript

variable {keyword : Token} {rest : List Token}

/-! ## How a directive ends -/

/-- What a pattern makes of the parameters, if it accepts them. -/
def Pattern.make? {α : Type} (p : Pattern α) (bs : Bindings) : Except Fault (Option α) := do
  match ← p.validate bs with
  | .accepted => return some (← p.create bs)
  | .refused _ => return none

/-- **A directive that is made:** the pattern of its keyword accepts what the walk over the texts
after it binds. -/
structure Made (keyword : Token) (rest : List Token) (node : Command) (source : String)
    (consumed : Nat) (p : Pattern Command) (bs : Bindings) : Prop where
  found : directives.find? keyword.text = some p
  complete : p.required ≤ rest.length
  walked : p.walkFrom (rest.map Token.text) = .done bs consumed
  accepted : p.validate bs = .ok .accepted
  created : p.create bs = .ok node
  source_eq : source = spaced ((keyword :: rest).take consumed)

/-- **The ends of a directive.** -/
inductive Ends (keyword : Token) (rest : List Token) : Except Fault (Outcome Command) → Prop where
  | unknown (missing : directives.find? keyword.text = none) :
    Ends keyword rest
      (.ok (.failed (.about keyword keyword.text ("Unknown command: " ++ keyword.text)) 0))
  | incomplete {p : Pattern Command} (found : directives.find? keyword.text = some p)
      (short : rest.length < p.required) :
    Ends keyword rest
      (.ok (.failed (.about keyword p.name ("Incomplete command: " ++ p.name)) 0))
  | misfit {p : Pattern Command} {place : Nat} {t : Token}
      (found : directives.find? keyword.text = some p) (complete : p.required ≤ rest.length)
      (walked : p.walkFrom (rest.map Token.text) = .stuck place)
      (here : (keyword :: rest)[place]? = some t) :
    Ends keyword rest (.ok (.failed (.about t p.name
      (p.name ++ ": Invalid command arguments \x7b" ++ t.text ++ "\x7d")) place))
  | refused {p : Pattern Command} {bs : Bindings} {used : Nat} {detail : Option String}
      (found : directives.find? keyword.text = some p) (complete : p.required ≤ rest.length)
      (walked : p.walkFrom (rest.map Token.text) = .done bs used)
      (refused : p.validate bs = .ok (.refused detail)) :
    Ends keyword rest (.ok (.failed (.about keyword p.name
      ("Params didn't validate: \x7b" ++ spaced ((keyword :: rest).take used) ++ "\x7d") detail)
      (used - 1)))
  | made {node : Command} {source : String} {consumed : Nat} {p : Pattern Command}
      {bs : Bindings} (made : Made keyword rest node source consumed p bs) :
    Ends keyword rest (.ok (.made node source consumed))
  | fault {f : Fault} {p : Pattern Command} {bs : Bindings} {used : Nat}
      (found : directives.find? keyword.text = some p) (complete : p.required ≤ rest.length)
      (walked : p.walkFrom (rest.map Token.text) = .done bs used)
      (fault : p.make? bs = .error f) :
    Ends keyword rest (.error f)

/-- **Matching ends in one of these ways.** -/
theorem match_ends (keyword : Token) (rest : List Token) :
    Ends keyword rest (directives.match keyword rest) := by
  cases hfind : directives.find? keyword.text with
  | none =>
    rw [Registry.match, hfind]
    exact .unknown hfind
  | some p =>
    have hp := (find?_directives hfind).1
    rw [match_eq_walk rest hfind (wellPlaced_directives p hp)]
    by_cases hlen : rest.length < p.required
    · rw [if_pos hlen]
      exact .incomplete hfind hlen
    · rw [if_neg hlen]
      rw [Nat.not_lt] at hlen
      cases hw : p.walkFrom (rest.map Token.text) with
      | stuck place =>
        obtain ⟨t, ht⟩ : ∃ t, (keyword :: rest)[place]? = some t :=
          getElem?_of_walkFrom_stuck (wellPlaced_directives p hp) hlen hw
        simp only [Pattern.conclude, ht]
        exact .misfit hfind hlen hw ht
      -- the texts fit: what is left to go wrong is in the condition and the constructor
      | done bs used =>
        rw [Pattern.conclude]
        rcases hv : p.validate bs with f | _ | detail
        · exact .fault hfind hlen hw (by rw [Pattern.make?, hv]; rfl)
        · rcases hc : p.create bs with f | node
          · exact .fault hfind hlen hw (by rw [Pattern.make?, hv]; simp [hc, bind, Except.bind])
          · exact .made ⟨hfind, hlen, hw, hv, hc, rfl⟩
        · exact .refused hfind hlen hw hv

/-! ## Reading the ends -/

/-- **A directive is made** exactly if the pattern of its keyword accepts it. -/
theorem match_made {node : Command} {source : String} {consumed : Nat} :
    directives.match keyword rest = .ok (.made node source consumed) ↔
      ∃ p bs, Made keyword rest node source consumed p bs := by
  cases hfind : directives.find? keyword.text with
  | none =>
    rw [Registry.match, hfind]
    constructor
    · intro h
      cases h
    · rintro ⟨p, bs, h⟩
      cases hfind.symm.trans h.found
  | some p =>
    rw [match_made_iff hfind (wellPlaced_directives p (find?_directives hfind).1)]
    constructor
    · rintro ⟨hlen, bs, hwalked, haccepted, hcreated, hsource⟩
      exact ⟨p, bs, hfind, hlen, hwalked, haccepted, hcreated, hsource⟩
    · rintro ⟨q, bs, h⟩
      obtain rfl : p = q := Option.some.inj (hfind.symm.trans h.found)
      exact ⟨h.complete, bs, h.walked, h.accepted, h.created, h.source_eq⟩

namespace Made

variable {node : Command} {source : String} {consumed : Nat} {p : Pattern Command}
  {bs : Bindings}

theorem mem (h : Made keyword rest node source consumed p bs) : p ∈ directivePatterns :=
  (find?_directives h.found).1

theorem hasKeyword (h : Made keyword rest node source consumed p bs) :
    directives.hasKeyword keyword.text = true :=
  hasKeyword_directives.2 ⟨p, h.found⟩

theorem pos (h : Made keyword rest node source consumed p bs) : 1 ≤ consumed := by
  have hstop := (walkFrom_stop p (rest.map Token.text)).1
  rwa [h.walked] at hstop

theorem consumed_le (h : Made keyword rest node source consumed p bs) :
    consumed ≤ rest.length + 1 := by
  have hstop := (walkFrom_stop p (rest.map Token.text)).2
  rwa [h.walked, List.length_map] at hstop

end Made

/-- **The token at fault** is the keyword or one of the tokens after it. -/
theorem failedAt_le {diagnostic : Diagnostic} {failedAt : Nat}
    (h : directives.match keyword rest = .ok (.failed diagnostic failedAt)) :
    failedAt ≤ rest.length := by
  have hends := match_ends keyword rest
  rw [h] at hends
  rcases hends with _ | _ | ⟨_, _, _, hhere⟩ | @⟨p, _, _, _, _, _, hwalked, _⟩
  · exact Nat.zero_le _
  · exact Nat.zero_le _
  · have hlt := (List.getElem?_eq_some_iff.1 hhere).1
    -- a token that does not fit is there
    rw [List.length_cons] at hlt
    omega
  · -- a refused directive fails at the last token it used
    have hstop := (walkFrom_stop p (rest.map Token.text)).2
    rw [hwalked, Walk.stop, List.length_map] at hstop
    omega

end ClipScript
