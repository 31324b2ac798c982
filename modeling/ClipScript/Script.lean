/-
# Scripts

Parsing cuts the tokens of a script into *segments*, from left to right. A comment
is a segment of its own. At any other token a directive is matched: if that
succeeds, the tokens it used are a segment; if not, the directive is rejected, and
its segment goes on to the next token that can start something, a keyword or a
comment. The tokens up to the one at fault were read as parameters, so a keyword
among them starts nothing; but a comment in the very place at fault does.

Every segment has at least one token, and the segments together are all the
tokens. What a script means is read off its segments: its commands, the text of
each as understood, and the diagnostics.
-/
import ClipScript.Directives
import ClipScript.Log
import ClipScript.Pattern.Matching
import ClipScript.Token.Lexer

set_option autoImplicit false

namespace ClipScript

/-! ## Segments -/

/-- **A segment** of a script. -/
inductive Segment (α : Type) where
  | comment (node : α) (token : Token)
  | directive (node : α) (source : String) (tokens : List Token)
  | rejected (diagnostic : Diagnostic) (tokens : List Token)
deriving DecidableEq

namespace Segment

variable {α : Type}

/-- The tokens of a segment. -/
def tokens : Segment α → List Token
  | comment _ t => [t]
  | directive _ _ ts => ts
  | rejected _ ts => ts

/-- What a segment becomes, if it is understood, with its text. -/
def understood? : Segment α → Option (α × String)
  | comment node t => some (node, t.text)
  | directive node source _ => some (node, source)
  | rejected .. => none

/-- The diagnostic of a rejected segment. -/
def diagnostic? : Segment α → Option Diagnostic
  | rejected d _ => some d
  | _ => none

end Segment

/-! ## Cutting tokens into segments -/

variable {α : Type}

/-- A token that can start a segment. -/
def Registry.starts (r : Registry α) (t : Token) : Bool := t.isComment || r.hasKeyword t.text

/-- How many of the tokens after the keyword belong to a directive that failed at the
`failedAt`-th of them, or at the keyword itself for zero. -/
def Registry.rejectedLength (r : Registry α) (rest : List Token) (failedAt : Nat) : Nat :=
  match failedAt with
  | 0 => (rest.takeWhile fun t => !r.starts t).length
  | f + 1 =>
    if rest[f]?.any Token.isComment then f
    else f + 1 + ((rest.drop (f + 1)).takeWhile fun t => !r.starts t).length

/-- **The segments** of some tokens. -/
def Registry.segments (r : Registry α) : List Token → Except Fault (List (Segment α))
  | [] => .ok []
  | t :: ts =>
    if t.isComment then do
      return .comment (r.ofComment t.text) t :: (← r.segments ts)
    else do
      match ← r.match t ts with
      | .made node source consumed =>
        return .directive node source (t :: ts.take (consumed - 1)) ::
          (← r.segments (ts.drop (consumed - 1)))
      | .failed diagnostic failedAt =>
        let n := r.rejectedLength ts failedAt
        return .rejected diagnostic (t :: ts.take n) :: (← r.segments (ts.drop n))
termination_by ts => ts.length
decreasing_by all_goals (simp; try omega)

/-! ## Scripts -/

/-- **A parsed script.** -/
structure Script (α : Type) where
  segments : List (Segment α)
deriving DecidableEq

namespace Script

/-- What is understood, each with its text, in order. -/
def understood (s : Script α) : List (α × String) := s.segments.filterMap Segment.understood?

/-- What the script becomes. -/
def commands (s : Script α) : List α := s.understood.map Prod.fst

/-- The text of each of the commands. -/
def snippets (s : Script α) : List String := s.understood.map Prod.snd

/-- The diagnostics of what is rejected, in order. -/
def diagnostics (s : Script α) : List Diagnostic := s.segments.filterMap Segment.diagnostic?

/-- The messages of the diagnostics. -/
def errors (s : Script α) : List String := s.diagnostics.map Diagnostic.message

/-- There is a message for each diagnostic. -/
theorem length_errors (s : Script α) : s.errors.length = s.diagnostics.length := by
  simp [errors]

end Script

/-- **Parsing** with the patterns of a registry. -/
def Registry.parse (r : Registry α) (style : CommentStyle) (source : String) :
    Except Fault (Script α) := do
  return ⟨← r.segments (tokenize style source)⟩

/-- **Parsing a script.** -/
def parse (style : CommentStyle) (source : String) : Except Fault (Script Command) :=
  directives.parse style source

/-! ## What parsing reports -/

/-- The log entries of a segment: what was matched, or what was rejected and how much. -/
def Segment.log : Segment Command → List Log.Entry
  | .comment .. => []
  | .directive c source _ =>
    [⟨.debug, "naturalff.language.parser", "Matched " ++ c.kind ++ ": " ++ source⟩]
  | .rejected d ts =>
    [⟨.debug, "naturalff.language.parser",
      d.message ++ "; skipping " ++ toString ts.length ++ " token(s)"⟩]

/-- The log of parsing a script. -/
def Script.log (s : Script Command) : List Log.Entry := s.segments.flatMap Segment.log

end ClipScript
