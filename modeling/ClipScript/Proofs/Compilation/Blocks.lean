/-
# Blocks of the command line

The arguments that are put together can stand at any stages, also at those of other parts.
What comes out is said here without the way it is sorted.

The command line consists of *blocks*. An argument that is no filter is one, and so are the
fragments of a chain together, if it has any. The blocks for reading come before the file
to read, and all others behind it; within both, blocks are in order (`InOrder`): none stands
before one of an earlier stage, and blocks of one stage stay as they are given. The block of
a chain has the stage of its part, whatever the stages of its fragments are, and is given
behind the arguments that are no filters (`assemble_blocks`).

Where every argument has the stage of its part, only those of each part count, and it does
not matter in which way the parts are mixed.
-/
import ClipScript.Proofs.Compilation.Stages

set_option autoImplicit false

namespace ClipScript

variable {arguments : List Argument}

/-! ## Blocks -/

/-- **Arguments in order:** the same ones, none before one of an earlier stage, and those of each
stage as they were. -/
structure InOrder (given sorted : List Argument) : Prop where
  perm : sorted.Perm given
  increasing : sorted.Pairwise fun a b => a.stage ≤ b.stage
  stable : ∀ k, sorted.filter (fun a => a.stage = k) = given.filter fun a => a.stage = k

/-- The block of a chain at a stage, if the chain has any fragments. -/
def chainBlock (chain : Destination) (option : String) (stage : Int)
    (arguments : List Argument) : List Argument :=
  if argumentsFor chain arguments = [] then []
  else [⟨chain, [option, String.intercalate "," (wordsFor chain arguments)], stage⟩]

/-- **The blocks behind the file to read:** the arguments that are neither for reading nor filters,
the block of the picture and the block of the sound. -/
def laterBlocks (arguments : List Argument) : List Argument :=
  (arguments.filter fun a => a.destination ≠ .input && !a.destination.isFilter) ++
    chainBlock .videoFilter "-vf" 2 arguments ++ chainBlock .audioFilter "-af" 3 arguments

/-- **One fragment each:** every filter argument has a single word. -/
def OneFragment (arguments : List Argument) : Prop :=
  ∀ a ∈ arguments, a.destination.isFilter = true → a.words.length = 1

instance (arguments : List Argument) : Decidable (OneFragment arguments) :=
  inferInstanceAs (Decidable (∀ a ∈ arguments, _))

/-! ## Sorting -/

/-- **Sorting puts any selection of the arguments in order.** -/
theorem inOrder_filter_sortByKey (p : Argument → Bool) (given : List Argument) :
    InOrder (given.filter p) ((sortByKey Argument.stage given).filter p) := by
  refine ⟨(sortByKey_perm _ given).filter p, (pairwise_sortByKey _ given).filter p, ?_⟩
  intro k
  rw [List.filter_filter, List.filter_filter]
  apply filter_sortByKey
  intro a ha
  exact of_decide_eq_true (Bool.and_eq_true_iff.1 ha).1

/-! ## Chains -/

/-- The fragments of a chain are the words of its arguments. -/
theorem fragments_of_oneFragment {chain : Destination} (hchain : chain.isFilter = true)
    (h : OneFragment arguments) : fragments chain arguments = .ok (wordsFor chain arguments) := by
  have hone : ∀ a ∈ argumentsFor chain arguments, a.words.length = 1 := by
    intro a ha
    obtain ⟨hmem, hpart⟩ := List.mem_filter.1 ha
    apply h a hmem
    rw [of_decide_eq_true hpart]
    exact hchain
  rw [fragments, wordsFor, ← argumentsFor]
  generalize argumentsFor chain arguments = as at hone
  induction as with
  | nil => rfl
  | cons a as ih =>
    obtain ⟨ha, has⟩ := List.forall_mem_cons.1 hone
    obtain ⟨w, hw⟩ := List.length_eq_one_iff.1 ha
    rw [List.mapM_cons, ih has, List.flatMap_cons, hw]
    rfl

/-- What stands for a chain is its block. -/
theorem chainArgument_eq_chainBlock {chain : Destination} (hchain : chain.isFilter = true)
    (option : String) (h : OneFragment arguments) :
    chainArgument chain option (wordsFor chain arguments) =
      chainBlock chain option chain.stage arguments := by
  rw [chainArgument, chainBlock]
  by_cases hnil : argumentsFor chain arguments = []
  · rw [wordsFor, hnil, if_pos rfl]
    rfl
  · rw [if_neg hnil, if_neg]
    · rfl
    · -- a fragment of the chain is among the words
      obtain ⟨a, ha⟩ := List.exists_mem_of_ne_nil _ hnil
      obtain ⟨hmem, hpart⟩ := List.mem_filter.1 ha
      have hone := h a hmem (by rw [of_decide_eq_true hpart]; exact hchain)
      intro hempty
      have hwords := List.flatMap_eq_nil_iff.1 (List.isEmpty_iff.1 hempty) a ha
      rw [hwords] at hone
      cases hone

/-- The block of a chain is not for reading. -/
theorem filter_chainBlock {chain : Destination} (hchain : chain.isFilter = true) (option : String)
    (stage : Int) (arguments : List Argument) :
    (chainBlock chain option stage arguments).filter (fun a => a.destination = .input) = [] ∧
      (chainBlock chain option stage arguments).filter (fun a => a.destination ≠ .input) =
        chainBlock chain option stage arguments := by
  have hne : chain ≠ .input := by
    rintro rfl
    cases hchain
  have hpart : ∀ a ∈ chainBlock chain option stage arguments, a.destination = chain := by
    intro a ha
    unfold chainBlock at ha
    split at ha
    · cases ha
    · rw [List.mem_singleton.1 ha]
  constructor
  · apply List.filter_eq_nil_iff.2
    intro a ha
    rw [hpart a ha]
    simpa using hne
  · apply List.filter_eq_self.2
    intro a ha
    rw [hpart a ha]
    simpa using hne

/-! ## The command line -/

/-- **The command line is made of blocks in order,** with the file to read between those for
reading and the others, and the file to write behind all. With arguments at the stages of their
parts it is the same for all arguments that are the same part by part. -/
theorem assemble_blocks (h : OneFragment arguments) (source output : String) :
    (∃ before after,
      InOrder (arguments.filter fun a => a.destination = .input) before ∧
      InOrder (laterBlocks arguments) after ∧
      assemble arguments source output = .ok (before.flatMap Argument.words ++ ["-i", source] ++
        after.flatMap Argument.words ++ [output])) ∧
    ((∀ a ∈ arguments, a.Staged) → ∀ others : List Argument, (∀ a ∈ others, a.Staged) →
      (∀ part, argumentsFor part others = argumentsFor part arguments) →
        assemble others source output = assemble arguments source output) := by
  have hvideo : fragments .videoFilter arguments = _ := fragments_of_oneFragment rfl h
  have haudio : fragments .audioFilter arguments = _ := fragments_of_oneFragment rfl h
  constructor
  · have hvf : chainArgument .videoFilter "-vf" (wordsFor .videoFilter arguments) =
        chainBlock .videoFilter "-vf" 2 arguments := chainArgument_eq_chainBlock rfl "-vf" h
    have haf : chainArgument .audioFilter "-af" (wordsFor .audioFilter arguments) =
        chainBlock .audioFilter "-af" 3 arguments := chainArgument_eq_chainBlock rfl "-af" h
    rw [assemble, hvideo, haudio]
    simp only [bind, Except.bind, hvf, haf]
    generalize hgrouped : (arguments.filter fun a => !a.destination.isFilter) ++
      chainBlock .videoFilter "-vf" 2 arguments ++ chainBlock .audioFilter "-af" 3 arguments =
        grouped
    have hvfInput := @filter_chainBlock .videoFilter rfl "-vf" 2 arguments
    have hafInput := @filter_chainBlock .audioFilter rfl "-af" 3 arguments
    have hbefore : grouped.filter (fun a => a.destination = .input) =
        arguments.filter fun a => a.destination = .input := by
      rw [← hgrouped, List.filter_append, List.filter_append, hvfInput.1, hafInput.1,
        List.append_nil, List.append_nil, List.filter_filter]
      apply List.filter_congr
      intro a _
      by_cases hinput : a.destination = .input
      · rw [hinput]
        rfl
      · simp [hinput]
    have hafter : grouped.filter (fun a => a.destination ≠ .input) = laterBlocks arguments := by
      rw [← hgrouped, List.filter_append, List.filter_append, hvfInput.2, hafInput.2,
        List.filter_filter]
      rfl
    refine ⟨_, _, ?_, ?_, rfl⟩
    · rw [← hbefore]
      exact inOrder_filter_sortByKey _ grouped
    · rw [← hafter]
      exact inOrder_filter_sortByKey _ grouped
  · intro hstaged others hothers hparts
    have hwords : ∀ part, wordsFor part others = wordsFor part arguments := by
      intro part
      rw [wordsFor, hparts, wordsFor]
    have hfragments : ∀ chain, fragments chain others = fragments chain arguments := by
      intro chain
      have hsame := hparts chain
      unfold argumentsFor at hsame
      rw [fragments, hsame, fragments]
    rw [assemble_eq hstaged hvideo haudio, assemble_eq hothers
      ((hfragments .videoFilter).trans hvideo) ((hfragments .audioFilter).trans haudio)]
    simp only [hwords]

/-- Arguments at stages of other parts: those for reading stand at a late one and in the wrong
order, the fragments of the picture at two stages, and three blocks at one stage. -/
def mixedArguments : List Argument :=
  [.of .outputCodec ["-c:v", "libx264"] 3, .of .input ["-ss", "5"] 7,
    .of .videoFilter ["scale=640:360"] 0, .of .audioFilter ["volume=2"], .of .globalOption ["-y"],
    .of .videoFilter ["hue=s=0"] 9, .of .input ["-re"], .of .outputFormat ["-f", "mp4"] 2,
    .of .globalOption ["-n"] 2]

/-- The two blocks for reading are put in order before the file, and of the three blocks at stage
two the one of the picture comes last. -/
theorem assemble_blocks_mixedArguments :
    OneFragment mixedArguments ∧ ∃ before after,
      InOrder (mixedArguments.filter fun a => a.destination = .input) before ∧
      InOrder (laterBlocks mixedArguments) after ∧
      before.flatMap Argument.words ++ ["-i", "in.mkv"] ++ after.flatMap Argument.words ++
          ["out.mp4"] =
        ["-re", "-ss", "5", "-i", "in.mkv", "-y", "-f", "mp4", "-n", "-vf",
          "scale=640:360,hue=s=0", "-c:v", "libx264", "-af", "volume=2", "out.mp4"] := by
  have hone : OneFragment mixedArguments := by decide
  obtain ⟨⟨before, after, hbefore, hafter, hwords⟩, -⟩ :=
    assemble_blocks hone "in.mkv" "out.mp4"
  have hline : assemble mixedArguments "in.mkv" "out.mp4" = .ok
      ["-re", "-ss", "5", "-i", "in.mkv", "-y", "-f", "mp4", "-n", "-vf",
        "scale=640:360,hue=s=0", "-c:v", "libx264", "-af", "volume=2", "out.mp4"] := rfl
  rw [hline, Except.ok.injEq] at hwords
  exact ⟨hone, before, after, hbefore, hafter, hwords.symm⟩

end ClipScript
