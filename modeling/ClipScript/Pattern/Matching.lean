/-
# Matching a directive

A directive is matched against the pattern of its keyword, slot by slot in order
of position. A required slot takes the token at its position; if the token does
not have its shape, the directive fails there. A group of optional slots takes
its tokens if all of them are there and fit, and otherwise none: the tokens that
follow then stand that many places earlier, which is what `skipped` counts.

What is matched is a *window* of the tokens, from the keyword to the largest
position of a slot. A directive with fewer tokens than its required slots reach is
incomplete before any slot is looked at.
-/
import ClipScript.Pattern
import ClipScript.Token

set_option autoImplicit false

namespace ClipScript

/-! ## Windows -/

/-- The token at a position of a window. A position before the keyword, which only a pattern
with several optional slots at one place can reach, counts from the end. -/
def tokenAt (window : List Token) (position : Int) : Except Fault Token :=
  let index := if position < 0 then position + window.length else position
  match index with
  | .ofNat i =>
    match window[i]? with
    | some t => .ok t
    | none => .error .noToken
  | .negSucc _ => .error .noToken

/-! ## Slots -/

/-- How far a match has come: parameters, slots passed over, and tokens used. -/
structure Progress where
  bindings : Bindings := []
  skipped : Nat := 0
  used : Nat := 1
deriving DecidableEq

/-- The place of a slot in the window, after slots that were passed over. -/
def Progress.place (p : Progress) (s : Slot) : Int := s.position - p.skipped

/-- The number of tokens used once the one at a place is. -/
def Progress.through (p : Progress) (place : Int) : Nat := max p.used (place + 1).toNat

/-- The optional slots, from `first` on, that are there or not together with it. -/
def groupOf (first : Slot) (later : List Slot) : List Slot :=
  match first.group with
  | none => [first]
  | some g => if g.isEmpty then [first]
    else first :: later.filter fun s => s.optional && s.group == some g

/-- A group has its first slot, so matching ends. -/
theorem groupOf_length_pos (first : Slot) (later : List Slot) :
    0 < (groupOf first later).length := by
  unfold groupOf
  split
  · simp
  · split <;> simp

/-- Whether every slot of a group has its token. -/
def groupPresent (window : List Token) (p : Progress) : List Slot → Except Fault Bool
  | [] => .ok true
  | s :: ss =>
    if p.place s < window.length then do
      let t ← tokenAt window (p.place s)
      if s.shape.accepts t.text then groupPresent window p ss else .ok false
    else .ok false

/-- The parameters of a group: its tokens if it is there, else its fallbacks. -/
def bindGroup (window : List Token) (p : Progress) (present : Bool) :
    List Slot → Bindings → Except Fault Bindings
  | [], bs => .ok bs
  | s :: ss, bs =>
    match s.parameter?, present with
    | none, _ => bindGroup window p present ss bs
    | some name, false => bindGroup window p present ss (bs.bind name s.fallback)
    | some name, true => do
      let t ← tokenAt window (p.place s)
      bindGroup window p present ss (bs.bind name (some t.text))

/-- The place of the last slot of a group. -/
def lastPlace (p : Progress) (first : Slot) (group : List Slot) : Int :=
  p.place (group.getLast?.getD first)

/-- What matching the slots comes to: parameters and tokens used, or the token that did not
fit and its place. -/
inductive Binding where
  | bound (bindings : Bindings) (used : Nat)
  | mismatch (token : Token) (place : Int)
deriving DecidableEq

/-- **Matching slots** in order. -/
def bindSlots (window : List Token) : List Slot → Progress → Except Fault Binding
  | [], p => .ok (.bound p.bindings p.used)
  | s :: ss, p =>
    if s.optional then do
      let group := groupOf s ss
      let present ← groupPresent window p group
      let bindings ← bindGroup window p present group p.bindings
      let p' : Progress :=
        if present then { p with bindings, used := p.through (lastPlace p s group) }
        else { p with bindings, skipped := p.skipped + group.length }
      bindSlots window (ss.drop (group.length - 1)) p'
    else do
      let t ← tokenAt window (p.place s)
      if s.shape.accepts t.text then
        bindSlots window ss
          { p with
            bindings := p.bindings.bind? s.parameter? (some t.text), used := p.through (p.place s) }
      else .ok (.mismatch t (p.place s))
termination_by ss => ss.length
decreasing_by all_goals (simp; try omega)

/-! ## Directives -/

/-- **The outcome** of matching one directive: what is made of its first `consumed` tokens, or
why it failed and how many tokens after the keyword the token at fault is. -/
inductive Outcome (α : Type) where
  | made (node : α) (source : String) (consumed : Nat)
  | failed (diagnostic : Diagnostic) (failedAt : Nat)
deriving DecidableEq

/-- **Matching the directive** of a keyword; `rest` are the tokens after it. -/
def Registry.match {α : Type} (r : Registry α) (keyword : Token) (rest : List Token) :
    Except Fault (Outcome α) :=
  match r.find? keyword.text with
  | none =>
    .ok (.failed (.about keyword keyword.text ("Unknown command: " ++ keyword.text)) 0)
  | some pattern =>
    let window := (keyword :: rest).take (pattern.reach + 1)
    if window.length ≤ pattern.required then
      .ok (.failed (.about keyword pattern.name ("Incomplete command: " ++ pattern.name)) 0)
    else do
      match ← bindSlots window pattern.ordered {} with
      | .mismatch token place =>
        let message := pattern.name ++ ": Invalid command arguments \x7b" ++ token.text ++ "\x7d"
        .ok (.failed (.about token pattern.name message) place.toNat)
      | .bound bindings used =>
        let source := spaced (window.take used)
        match ← pattern.validate bindings with
        | .refused detail =>
          let message := "Params didn't validate: \x7b" ++ source ++ "\x7d"
          .ok (.failed (.about keyword pattern.name message detail) (used - 1))
        | .accepted => .ok (.made (← pattern.create bindings) source used)

end ClipScript
