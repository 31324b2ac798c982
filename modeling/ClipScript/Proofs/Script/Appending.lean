/-
# Scripts one after another

A script in which nothing is rejected can have another one put behind it: what comes out
is what the two give by themselves, one after the other, with the diagnostics of the
second further down by the lines of the first.

That takes two facts. Where tokens stand does not matter to how they are cut: a registry
makes the same segments of them further down, with the lines in its diagnostics further
down too (`segments_down`). And what is understood stays so whatever starts behind it,
since it is so for its texts alone (`segments_append_of_said`). The second text has to
start something, or its first words could be taken for the rest of the last directive of
the first: `aligned left` goes with an `add_text` before it.
-/
import ClipScript.Proofs.Script.Echo
import ClipScript.Proofs.Script.Places
import ClipScript.Proofs.Token.Appending

set_option autoImplicit false

namespace ClipScript

/-! ## Further down -/

/-- A diagnostic some lines further down. -/
def Diagnostic.down (n : Nat) (d : Diagnostic) : Diagnostic := { d with line := d.line.map (· + n) }

variable {α : Type}

/-- A segment some lines further down. -/
def Segment.down (n : Nat) : Segment α → Segment α
  | comment node t => comment node (t.down n)
  | directive node source ts => directive node source (ts.map (Token.down n))
  | rejected d ts => rejected (d.down n) (ts.map (Token.down n))

/-- Further down is one way of moving tokens. -/
theorem moves_down (n : Nat) : Moves (Token.down n) (Diagnostic.down n) :=
  ⟨fun _ => rfl, fun _ _ _ _ => rfl⟩

theorem Segment.moved_down (n : Nat) :
    Segment.moved (Token.down n) (Diagnostic.down n) = Segment.down (α := α) n := by
  funext g
  cases g <;> rfl

/-- **Where tokens stand** does not matter to how they are cut. -/
theorem segments_down {r : Registry α} (hr : ∀ p ∈ r.patterns, p.WellPlaced) (n : Nat)
    (ts : List Token) :
    r.segments (ts.map (Token.down n)) = (r.segments ts).map (List.map (Segment.down n)) := by
  rw [(moves_down n).segments_eq hr, Segment.moved_down]

/-! ## Scripts -/

/-- A script some lines further down. -/
def Script.down (n : Nat) (s : Script α) : Script α := ⟨s.segments.map (Segment.down n)⟩

namespace Script

theorem understood_down (n : Nat) (s : Script α) : (s.down n).understood = s.understood := by
  rw [understood, down, ← Segment.moved_down, (moves_down n).understood_eq, understood]

theorem diagnostics_down (n : Nat) (s : Script α) :
    (s.down n).diagnostics = s.diagnostics.map (Diagnostic.down n) := by
  rw [diagnostics, down, ← Segment.moved_down, Moves.diagnostics_eq, diagnostics]

end Script

/-- A script in which nothing is rejected is what its texts say. -/
theorem exists_said {style : CommentStyle} {source : String} {s : Script Command}
    (h : parse style source = .ok s) (hok : s.diagnostics = []) :
    ∃ gs : List (List String × Command × String), (∀ g ∈ gs, Says g.1 g.2) ∧
      (tokenize style source).map Token.text = gs.flatMap Prod.fst ∧
      gs.map Prod.snd = s.understood := by
  have hcuts := cuts_of_parse h
  have hcovered := hcuts.flatMap_tokens
  rw [List.drop_zero, Nat.sub_zero, List.take_length] at hcovered
  refine ⟨s.segments.filterMap Segment.said?, ?_, ?_, (understood_eq s).symm⟩
  · intro g hg
    obtain ⟨segment, hmem, hsaid⟩ := List.mem_filterMap.1 hg
    obtain ⟨x, hx, rfl⟩ := Option.map_eq_some_iff.1 hsaid
    exact hcuts.says hmem hx
  · -- every segment is understood, so every one of its tokens is among those that say something
    have hall : ∀ g ∈ s.segments, g.said?.map Prod.fst = some (g.tokens.map Token.text) := by
      intro g hg
      have hnone : g.diagnostic? = none := List.filterMap_eq_nil_iff.1 hok g hg
      cases g with
      | comment node t => rfl
      | directive node source ts => rfl
      | rejected d ts => cases hnone
    rw [← hcovered, List.map_flatMap, List.flatMap_def, List.flatMap_def, List.map_filterMap,
      List.filterMap_congr hall, List.filterMap_eq_map']

/-- **One script after another:** behind a text that ends with a line feed, leaves no quote open
and has nothing rejected, a text that starts something gives what it gives by itself, with its
diagnostics further down. What it fails with by itself, it fails with there. -/
theorem parse_append {style : CommentStyle} {a b : String} {ra : Script Command}
    (hline : a.toList.getLast? = some '\n') (hquotes : QuotesClosed style a)
    (hra : parse style a = .ok ra) (hok : ra.errors = [])
    (hstart : ∀ t ∈ (tokenize style b).head?, directives.starts t = true) :
    (∀ rb, parse style b = .ok rb → ∃ r, parse style (a ++ b) = .ok r ∧
      r.commands = ra.commands ++ rb.commands ∧ r.snippets = ra.snippets ++ rb.snippets ∧
      r.errors = rb.errors ∧
      r.diagnostics = rb.diagnostics.map (Diagnostic.down (a.toList.count '\n'))) ∧
    ∀ f, parse style b = .error f → parse style (a ++ b) = .error f := by
  obtain ⟨gs, hsays, htexts, hunderstood⟩ := exists_said hra (List.map_eq_nil_iff.1 hok)
  have hback : ∀ t ∈ ((tokenize style b).map (Token.down (a.toList.count '\n'))).head?,
      directives.starts t = true := by
    intro t ht
    rw [List.head?_map, Option.mem_def, Option.map_eq_some_iff] at ht
    obtain ⟨t', ht', rfl⟩ := ht
    exact hstart t' ht'
  obtain ⟨segments, hsaid, hrejected, hrun⟩ := segments_append_of_said hsays htexts hback
  rw [← tokenize_append hline hquotes, segments_down wellPlaced_directives] at hrun
  rw [hunderstood] at hsaid
  unfold parse Registry.parse
  rw [hrun]
  generalize a.toList.count '\n' = n
  cases directives.segments (tokenize style b) with
  | error f =>
    constructor
    · intro rb h
      cases h
    · intro f' h
      cases h
      rfl
  | ok later =>
    constructor
    · intro rb h
      cases h
      have hall : Script.understood ⟨segments ++ later.map (Segment.down n)⟩ =
          ra.understood ++ Script.understood ⟨later⟩ := by
        rw [Script.understood, List.filterMap_append, hsaid]
        exact congrArg _ (Script.understood_down n ⟨later⟩)
      have hdiagnostics : Script.diagnostics ⟨segments ++ later.map (Segment.down n)⟩ =
          (Script.diagnostics ⟨later⟩).map (Diagnostic.down n) := by
        rw [Script.diagnostics, List.filterMap_append, hrejected]
        exact Script.diagnostics_down n ⟨later⟩
      refine ⟨⟨segments ++ later.map (Segment.down n)⟩, rfl, ?_, ?_, ?_, hdiagnostics⟩
      · rw [Script.commands, hall, List.map_append]
        rfl
      · rw [Script.snippets, hall, List.map_append]
        rfl
      · rw [Script.errors, hdiagnostics, List.map_map]
        rfl
    · intro f h
      cases h

/-- A script whose last directive could go on: a margin may follow. -/
def openEnded : String := "# title; quoted \"\nadd_text \"a; b\" at center\n"

/-- A script with a directive that is rejected, in its second line. -/
def refusing : String := "compress video\n  trim from 9 to 3"

/-- The second script is read as it is by itself, two lines further down. -/
theorem parse_append_refusing :
    openEnded.toList.getLast? = some '\n' ∧ QuotesClosed .bare openEnded ∧
      ∃ r, parse .bare (openEnded ++ refusing) = .ok r ∧
        r.commands = [.comment "# title  quoted \"",
          .caption "\"a  b\"" (.known .center) (.known .left) 0, .compress (.known .video)] ∧
        r.diagnostics = [⟨"Params didn't validate: \x7btrim from 9 to 3\x7d", "trim", some "trim",
          some 4, some 2, some "End time 3 must be after start time 9"⟩] := by
  have hline : openEnded.toList.getLast? = some '\n' := by decide
  have hquotes : QuotesClosed .bare openEnded := by decide +kernel
  obtain ⟨r, hr, hcommands, -, -, hdiagnostics⟩ :=
    (@parse_append .bare openEnded refusing ⟨[
      .comment (.comment "# title  quoted \"") ⟨.comment, "# title  quoted \"", 1, 0⟩,
      .directive (.caption "\"a  b\"" (.known .center) (.known .left) 0)
        "add_text \"a  b\" at center"
        [⟨.word, "add_text", 2, 0⟩, ⟨.quoted, "\"a  b\"", 2, 9⟩, ⟨.word, "at", 2, 16⟩,
          ⟨.word, "center", 2, 19⟩]]⟩
      hline hquotes (by decide +kernel) rfl (by decide +kernel)).1
      ⟨[.directive (.compress (.known .video)) "compress video"
          [⟨.word, "compress", 1, 0⟩, ⟨.word, "video", 1, 9⟩],
        .rejected ⟨"Params didn't validate: \x7btrim from 9 to 3\x7d", "trim", some "trim",
            some 2, some 2, some "End time 3 must be after start time 9"⟩
          [⟨.word, "trim", 2, 2⟩, ⟨.word, "from", 2, 7⟩, ⟨.word, "9", 2, 12⟩, ⟨.word, "to", 2, 14⟩,
            ⟨.word, "3", 2, 17⟩]]⟩
      (by decide +kernel)
  exact ⟨hline, hquotes, r, hr, hcommands, hdiagnostics⟩

end ClipScript
