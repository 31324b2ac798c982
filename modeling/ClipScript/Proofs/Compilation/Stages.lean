/-
# Arguments stage by stage

Sorting by stage and keeping the order within a stage amounts to this: the arguments
of the first stage in the order given, then those of the second, and so on. It is
shown for any keys and any increasing list of keys that has them all
(`sortByKey_eq_flatMap`), by the recursion of the sort: what is inserted goes past
all smaller keys and stops in front of its own.

A command line is put together from arguments that stand at the stages of their parts
(`Staged`), so its words are those of its parts, one part after another
(`assemble_eq`).
-/
import ClipScript.Argument

set_option autoImplicit false

namespace ClipScript

/-! ## Sorting by key -/

section Sorting

variable {α : Type} {key : α → Int}

theorem insertByKey_of_forall_le {x : α} {xs : List α} (h : ∀ y ∈ xs, key x ≤ key y) :
    insertByKey key x xs = x :: xs := by
  rcases xs with _ | ⟨y, ys⟩
  · rfl
  · rw [insertByKey, if_pos (h y List.mem_cons_self)]

/-- An item goes past all smaller keys. -/
theorem insertByKey_append {x : α} {xs : List α} (ys : List α) (h : ∀ y ∈ xs, key y < key x) :
    insertByKey key x (xs ++ ys) = xs ++ insertByKey key x ys := by
  induction xs with
  | nil => rfl
  | cons y xs ih =>
    have hy := h y List.mem_cons_self
    rw [List.cons_append, insertByKey, if_neg (by omega),
      ih fun z hz => h z (List.mem_cons_of_mem _ hz), List.cons_append]

/-- **A stable sort** puts the items of each key after those of the keys before it, in the order
that they have. -/
theorem sortByKey_eq_flatMap (ks : List Int) (hks : ks.Pairwise (· < ·)) {xs : List α}
    (h : ∀ x ∈ xs, key x ∈ ks) :
    sortByKey key xs = ks.flatMap fun k => xs.filter fun x => decide (key x = k) := by
  induction xs with
  | nil =>
    rw [sortByKey]
    exact (List.flatMap_eq_nil_iff.2 fun _ _ => rfl).symm
  | cons x xs ih =>
    -- its key splits the others into smaller and larger ones
    obtain ⟨before, after, rfl⟩ := List.append_of_mem (h x List.mem_cons_self)
    obtain ⟨-, hafter, hbefore⟩ := List.pairwise_append.1 hks
    have hlt : ∀ k ∈ before, k < key x := fun k hk => hbefore k hk _ List.mem_cons_self
    have hgt : ∀ k ∈ after, key x < k := (List.pairwise_cons.1 hafter).1
    -- the groups of the other keys do not have the new item
    have hothers : ∀ ls : List Int, (∀ k ∈ ls, key x ≠ k) →
        (ls.flatMap fun k => (x :: xs).filter fun y => decide (key y = k)) =
          ls.flatMap fun k => xs.filter fun y => decide (key y = k) := by
      intro ls hls
      rw [List.flatMap_def, List.flatMap_def, List.map_congr_left fun k hk => ?_]
      exact List.filter_cons_of_neg (by simp [hls k hk])
    -- the new item goes past the groups of the smaller keys, and to the front of its own
    rw [sortByKey, ih fun y hy => h y (List.mem_cons_of_mem _ hy)]
    simp only [List.flatMap_append, List.flatMap_cons]
    rw [hothers before fun k hk => (Int.ne_of_lt (hlt k hk)).symm,
      hothers after fun k hk => Int.ne_of_lt (hgt k hk), insertByKey_append,
      insertByKey_of_forall_le, List.filter_cons_of_pos (by simp), List.cons_append]
    · intro y hy
      rcases List.mem_append.1 hy with hy | hy
      · exact Int.le_of_eq (of_decide_eq_true (List.mem_filter.1 hy).2).symm
      · obtain ⟨k, hk, hy⟩ := List.mem_flatMap.1 hy
        rw [of_decide_eq_true (List.mem_filter.1 hy).2]
        exact Int.le_of_lt (hgt k hk)
    · intro y hy
      obtain ⟨k, hk, hy⟩ := List.mem_flatMap.1 hy
      rw [of_decide_eq_true (List.mem_filter.1 hy).2]
      exact hlt k hk

end Sorting

/-! ## The command line -/

/-- **Staged:** an argument at the stage of its part. -/
def Argument.Staged (a : Argument) : Prop := a.stage = a.destination.stage

theorem Argument.staged_of (destination : Destination) (words : List String) :
    (Argument.of destination words).Staged := rfl

/-- The arguments for a part. -/
def argumentsFor (part : Destination) (arguments : List Argument) : List Argument :=
  arguments.filter fun a => a.destination = part

/-- The words for a part. -/
def wordsFor (part : Destination) (arguments : List Argument) : List String :=
  (argumentsFor part arguments).flatMap Argument.words

theorem argumentsFor_append (part : Destination) (as bs : List Argument) :
    argumentsFor part (as ++ bs) = argumentsFor part as ++ argumentsFor part bs :=
  List.filter_append ..

theorem argumentsFor_argumentsFor (part other : Destination) (as : List Argument) :
    argumentsFor part (argumentsFor other as) =
      if other = part then argumentsFor other as else [] := by
  split
  · next h =>
    rw [← h, argumentsFor, argumentsFor, List.filter_filter]
    simp only [Bool.and_self]
  · next h =>
    refine List.filter_eq_nil_iff.2 fun a ha => ?_
    have hother : a.destination = other := of_decide_eq_true (List.mem_filter.1 ha).2
    simp [hother, h]

/-- What is for a part is all for reading or all not. -/
theorem filter_ne_input (part : Destination) (as : List Argument) :
    ((argumentsFor part as).filter fun a => a.destination ≠ .input) =
      if part = .input then [] else argumentsFor part as := by
  split
  · next h =>
    refine List.filter_eq_nil_iff.2 fun a ha => ?_
    have hpart : a.destination = part := of_decide_eq_true (List.mem_filter.1 ha).2
    simp [hpart, h]
  · next h =>
    refine List.filter_eq_self.2 fun a ha => ?_
    have hpart : a.destination = part := of_decide_eq_true (List.mem_filter.1 ha).2
    simp [hpart, h]

theorem Destination.stage_inj {d e : Destination} (h : d.stage = e.stage) : d = e := by
  rcases d with _ | _ | _ | _ | _ | _ <;> rcases e with _ | _ | _ | _ | _ | _ <;>
    first | rfl | exact absurd h (by decide)

/-- The parts in the order of their stages. -/
def partOrder : List Destination :=
  [.input, .globalOption, .videoFilter, .audioFilter, .outputFormat, .outputCodec]

/-- **Staged arguments sorted by stage** are those of each part after those of the parts before
it. -/
theorem sortByKey_stage {arguments : List Argument} (h : ∀ a ∈ arguments, a.Staged) :
    sortByKey Argument.stage arguments =
      partOrder.flatMap fun part => argumentsFor part arguments := by
  -- as every argument is staged, its stage tells its part
  have hstage : ∀ part : Destination, (arguments.filter fun a => decide (a.stage = part.stage)) =
      argumentsFor part arguments := by
    intro part
    refine List.filter_congr fun a ha => decide_eq_decide.2 ?_
    rw [h a ha]
    exact ⟨Destination.stage_inj, fun hpart => by rw [hpart]⟩
  rw [sortByKey_eq_flatMap (partOrder.map Destination.stage) (by decide)]
  · rw [List.flatMap_map]
    exact congrArg partOrder.flatMap (funext hstage)
  · intro a ha
    rw [h a ha]
    rcases a.destination with _ | _ | _ | _ | _ | _ <;> decide

/-! ## Putting arguments together -/

variable {arguments : List Argument} {part chain : Destination}

/-- The arguments of a chain that is not empty are one argument. -/
def chainWords (option : String) (texts : List String) : List String :=
  if texts.isEmpty then [] else [option, String.intercalate "," texts]

theorem chainArgument_staged {option : String} {texts : List String} :
    ∀ a ∈ chainArgument chain option texts, a.Staged := by
  intro a ha
  rw [chainArgument] at ha
  split at ha
  · cases ha
  · rw [List.mem_singleton.1 ha]
    exact Argument.staged_of ..

theorem argumentsFor_chainArgument (part chain : Destination) (option : String)
    (texts : List String) :
    argumentsFor part (chainArgument chain option texts) =
      if chain = part then chainArgument chain option texts else [] := by
  rw [chainArgument]
  by_cases hnil : texts.isEmpty = true
  · rw [if_pos hnil, ite_self]
    rfl
  · rw [if_neg hnil]
    by_cases hpart : chain = part
    · rw [if_pos hpart, argumentsFor, List.filter_cons_of_pos (by simpa [Argument.of] using hpart)]
      rfl
    · rw [if_neg hpart, argumentsFor, List.filter_cons_of_neg (by simpa [Argument.of] using hpart)]
      rfl

theorem flatMap_words_chainArgument (chain : Destination) (option : String) (texts : List String) :
    (chainArgument chain option texts).flatMap Argument.words = chainWords option texts := by
  rw [chainArgument, chainWords]
  split
  · rfl
  · rw [List.flatMap_singleton]
    rfl

theorem argumentsFor_of_not_isFilter (h : part.isFilter = false) (as : List Argument) :
    argumentsFor part (as.filter fun a => !a.destination.isFilter) = argumentsFor part as := by
  rw [argumentsFor, List.filter_filter]
  refine List.filter_congr fun a _ => ?_
  by_cases hpart : a.destination = part
  · simp [hpart, h]
  · simp [hpart]

theorem argumentsFor_of_isFilter (h : part.isFilter = true) (as : List Argument) :
    argumentsFor part (as.filter fun a => !a.destination.isFilter) = [] := by
  refine List.filter_eq_nil_iff.2 fun a ha => ?_
  have hrest := (List.mem_filter.1 ha).2
  intro hpart
  rw [of_decide_eq_true hpart, h] at hrest
  cases hrest

/-- **The command line of staged arguments:** the words of each part, one part after another, with
the file to read behind the first part and the file to write behind the last. -/
theorem assemble_eq (h : ∀ a ∈ arguments, a.Staged) {video audio : List String}
    (hvideo : fragments .videoFilter arguments = .ok video)
    (haudio : fragments .audioFilter arguments = .ok audio) (source output : String) :
    assemble arguments source output = .ok (
      wordsFor .input arguments ++ ["-i", source] ++ wordsFor .globalOption arguments ++
        chainWords "-vf" video ++ chainWords "-af" audio ++ wordsFor .outputFormat arguments ++
        wordsFor .outputCodec arguments ++ [output]) := by
  rw [assemble, hvideo, haudio]
  simp only [bind, Except.bind]
  generalize hgrouped : (arguments.filter fun a => !a.destination.isFilter) ++
    chainArgument .videoFilter "-vf" video ++ chainArgument .audioFilter "-af" audio = grouped
  have hstaged : ∀ a ∈ grouped, a.Staged := by
    intro a ha
    rw [← hgrouped, List.mem_append, List.mem_append] at ha
    rcases ha with (ha | ha) | ha
    · exact h a (List.mem_filter.1 ha).1
    · exact chainArgument_staged a ha
    · exact chainArgument_staged a ha
  -- sorted by stage, the arguments for reading come first and all others behind the file
  have hbefore : argumentsFor .input (sortByKey Argument.stage grouped) =
      argumentsFor .input grouped := by
    simp only [sortByKey_stage hstaged, partOrder, List.flatMap_cons, List.flatMap_nil,
      argumentsFor_append, argumentsFor_argumentsFor, reduceCtorEq, if_true, if_false,
      List.append_nil]
  have hafter : ((sortByKey Argument.stage grouped).filter fun a => a.destination ≠ .input) =
      argumentsFor .globalOption grouped ++ argumentsFor .videoFilter grouped ++
        argumentsFor .audioFilter grouped ++ argumentsFor .outputFormat grouped ++
        argumentsFor .outputCodec grouped := by
    simp only [sortByKey_stage hstaged, partOrder, List.flatMap_cons, List.flatMap_nil,
      List.filter_append, filter_ne_input, reduceCtorEq, if_true, if_false, List.append_nil,
      List.nil_append, List.append_assoc]
  -- a part that is no chain is untouched by grouping, and a chain is its one argument
  have hplain : ∀ part : Destination, part.isFilter = false →
      (argumentsFor part grouped).flatMap Argument.words = wordsFor part arguments := by
    intro part hpart
    have hvf : Destination.videoFilter ≠ part := by rintro rfl; cases hpart
    have haf : Destination.audioFilter ≠ part := by rintro rfl; cases hpart
    rw [← hgrouped, argumentsFor_append, argumentsFor_append, argumentsFor_of_not_isFilter hpart,
      argumentsFor_chainArgument, argumentsFor_chainArgument, if_neg hvf, if_neg haf,
      List.append_nil, List.append_nil, wordsFor]
  -- a chain has lost its fragments to the rest, and has the argument made of them
  have hvf : (argumentsFor .videoFilter grouped).flatMap Argument.words =
      chainWords "-vf" video := by
    rw [← hgrouped, argumentsFor_append, argumentsFor_append, argumentsFor_of_isFilter rfl,
      argumentsFor_chainArgument, argumentsFor_chainArgument, if_pos rfl, if_neg (by decide),
      List.append_nil, List.nil_append, flatMap_words_chainArgument]
  have haf : (argumentsFor .audioFilter grouped).flatMap Argument.words =
      chainWords "-af" audio := by
    rw [← hgrouped, argumentsFor_append, argumentsFor_append, argumentsFor_of_isFilter rfl,
      argumentsFor_chainArgument, argumentsFor_chainArgument, if_neg (by decide), if_pos rfl,
      List.append_nil, List.nil_append, flatMap_words_chainArgument]
  rw [show (sortByKey Argument.stage grouped).filter (fun a => decide (a.destination = .input)) =
    argumentsFor .input grouped from hbefore, hafter]
  simp only [List.flatMap_append, hplain _ (show Destination.isFilter .input = false from rfl),
    hplain _ (show Destination.isFilter .globalOption = false from rfl),
    hplain _ (show Destination.isFilter .outputFormat = false from rfl),
    hplain _ (show Destination.isFilter .outputCodec = false from rfl), hvf, haf,
    List.append_assoc]
  rfl

end ClipScript
