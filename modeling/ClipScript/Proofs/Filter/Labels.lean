/-
# Labels of images

A filter graph is cut into filters at the commas and semicolons outside quotes, and a filter
at its brackets: the labels in front of its text are what it takes, those behind it what it
gives (`graph`). What is written so is read back (`read_write`), so the fragment of an image is
the three filters that lay it over the picture (`graph_imageText`), and the fragment of any
other command has no labels, whatever texts there are in it (`unlabelled_of_build`).

An image has the labels of the number that is reached, and counts even if it is not built, so
that no later image has the same ones (`exists_labels_imageFragments`). In a script that is
compiled every image is built: the labels of its chain are those of the images in their order
(`Builds.overlays`), and each is there twice, once given and once taken (`count_labels`).
-/
import ClipScript.Proofs.Filter.Texts

set_option autoImplicit false

namespace ClipScript

namespace Filter

/-! ## Graphs -/

/-- The separators of the filters of a graph. -/
def endsFilter (c : Char) : Bool := c == ',' || c == ';'

/-- The brackets around a label. -/
def isBracket (c : Char) : Bool := c == '[' || c == ']'

/-- **A filter of a graph:** the labels that it takes, its text, and the labels that it gives. -/
structure GraphFilter where
  inputs : List String
  text : String
  outputs : List String
deriving DecidableEq, Repr

/-- The labels in front of the text of a filter, and what is behind them. -/
def takenFrom : List (List Char) → List String × List (List Char)
  | [] :: label :: parts => (takenFrom parts).map (String.ofList label :: ·) id
  | parts => ([], parts)

/-- The labels behind the text of a filter. -/
def givenFrom : List (List Char) → List String
  | _ :: label :: parts => String.ofList label :: givenFrom parts
  | _ => []

namespace GraphFilter

/-- The filter of some characters, which its brackets cut into texts and labels. -/
def read (cs : List Char) : GraphFilter :=
  let parts := takenFrom (cutFrom isBracket .outside cs)
  ⟨parts.1, String.ofList (parts.2.headD []), givenFrom parts.2⟩

/-- The labels of a filter. -/
def labels (f : GraphFilter) : List String := f.inputs ++ f.outputs

/-- Whether a filter has labels. -/
def isLabelled (f : GraphFilter) : Bool := !f.labels.isEmpty

end GraphFilter

/-- **The filters of a graph.** -/
def graph (chain : String) : List GraphFilter := (cut endsFilter chain).map GraphFilter.read

/-- **The labels of a graph,** in the order of its filters. -/
def labels (chain : String) : List String := (graph chain).flatMap GraphFilter.labels

theorem separates_endsFilter : Separates endsFilter := by
  intro c hc
  rw [endsFilter, Bool.or_eq_true, beq_iff_eq, beq_iff_eq] at hc
  rcases hc with rfl | rfl <;> rfl

theorem separates_isBracket : Separates isBracket := by
  intro c hc
  rw [isBracket, Bool.or_eq_true, beq_iff_eq, beq_iff_eq] at hc
  rcases hc with rfl | rfl <;> rfl

/-- The labelled filters of closed texts that are joined are those of each. -/
theorem filter_graph_intercalate {ts : List String} (h : ∀ t ∈ ts, Closed t) :
    (graph (String.intercalate "," ts)).filter GraphFilter.isLabelled =
      ts.flatMap fun t => (graph t).filter GraphFilter.isLabelled := by
  by_cases hnil : ts = []
  · subst hnil
    decide
  · rw [graph, cut_intercalate separates_endsFilter rfl hnil h, List.map_flatMap,
      List.filter_flatMap]
    rfl

/-- A solid text is one filter without labels. -/
theorem Solid.filter_graph {t : String} (h : Solid t) :
    (graph t).filter GraphFilter.isLabelled = [] := by
  have hfilter : cut endsFilter t = [t.toList] := h.cut_eq separates_endsFilter rfl rfl
  have hparts : cutFrom isBracket .outside t.toList = [t.toList] :=
    h.cut_eq separates_isBracket rfl rfl
  have htaken : takenFrom [t.toList] = ([], [t.toList]) := by
    rcases t.toList with _ | _ <;> rfl
  rw [graph, hfilter, List.map_singleton, GraphFilter.read, hparts, htaken]
  rfl

/-! ## Filters as they are written -/

/-- Some labels in brackets. -/
def bracketed (ls : List String) : List Char := ls.flatMap fun l => '[' :: l.toList ++ [']']

/-- **A filter as it is written.** -/
def GraphFilter.write (f : GraphFilter) : String :=
  String.ofList (bracketed f.inputs ++ (f.text.toList ++ bracketed f.outputs))

/-- **A filter that can be read back:** its text is solid and not empty, and its labels are mute. -/
structure GraphFilter.Regular (f : GraphFilter) : Prop where
  solid : Solid f.text
  text : f.text ≠ ""
  inputs : ∀ l ∈ f.inputs, Mute l.toList
  outputs : ∀ l ∈ f.outputs, Mute l.toList

/-- A label in brackets is cut out. -/
theorem cutFrom_label {l : List Char} (h : Mute l) (cs : List Char) :
    cutFrom isBracket .outside ('[' :: l ++ ']' :: cs) =
      [] :: l :: cutFrom isBracket .outside cs := by
  have hmarks : ∀ c ∈ marksFrom .outside l, isBracket c = false := by
    rw [h.marks]
    exact fun c hc => (List.not_mem_nil hc).elim
  rw [List.cons_append, show cutFrom isBracket .outside ('[' :: (l ++ ']' :: cs)) =
      [] :: cutFrom isBracket .outside (l ++ ']' :: cs) from rfl,
    cutFrom_append separates_isBracket rfl h.closed, cutFrom_of_forall separates_isBracket hmarks,
    List.singleton_append]

theorem takenFrom_bracketed {ls : List String} (h : ∀ l ∈ ls, Mute l.toList) (cs : List Char) :
    takenFrom (cutFrom isBracket .outside (bracketed ls ++ cs)) =
      (takenFrom (cutFrom isBracket .outside cs)).map (ls ++ ·) id := by
  induction ls with
  | nil => rfl
  | cons l ls ih =>
    have hlabel : bracketed (l :: ls) ++ cs = '[' :: l.toList ++ ']' :: (bracketed ls ++ cs) := by
      simp [bracketed]
    rw [hlabel, cutFrom_label (h l List.mem_cons_self), takenFrom,
      ih fun m hm => h m (List.mem_cons_of_mem _ hm), String.ofList_toList]
    rfl

theorem givenFrom_bracketed {ls : List String} (h : ∀ l ∈ ls, Mute l.toList) :
    givenFrom (cutFrom isBracket .outside (bracketed ls)) = ls := by
  induction ls with
  | nil => rfl
  | cons l ls ih =>
    have hlabel : bracketed (l :: ls) = '[' :: l.toList ++ ']' :: bracketed ls := by
      simp [bracketed]
    rw [hlabel, cutFrom_label (h l List.mem_cons_self), givenFrom, String.ofList_toList,
      ih fun m hm => h m (List.mem_cons_of_mem _ hm)]

/-- What is cut out of a text with labels behind it: the text first, and the labels. -/
theorem exists_cutFrom_text {t : String} (ht : Solid t) {ls : List String}
    (h : ∀ l ∈ ls, Mute l.toList) :
    ∃ parts, cutFrom isBracket .outside (t.toList ++ bracketed ls) = t.toList :: parts ∧
      givenFrom (t.toList :: parts) = ls := by
  have htext : cutFrom isBracket .outside t.toList = [t.toList] :=
    ht.cut_eq separates_isBracket rfl rfl
  cases ls with
  | nil =>
    refine ⟨[], ?_, rfl⟩
    rw [show bracketed [] = [] from rfl, List.append_nil, htext]
  | cons l ls =>
    have hlabel : bracketed (l :: ls) = '[' :: (l.toList ++ ']' :: bracketed ls) := by
      simp [bracketed]
    have hcut := cutFrom_label (h l List.mem_cons_self) (bracketed ls)
    rw [List.cons_append,
      show cutFrom isBracket .outside ('[' :: (l.toList ++ ']' :: bracketed ls)) =
        [] :: cutFrom isBracket .outside (l.toList ++ ']' :: bracketed ls) from rfl,
      List.cons.injEq] at hcut
    refine ⟨l.toList :: cutFrom isBracket .outside (bracketed ls), ?_, ?_⟩
    · rw [hlabel, cutFrom_append separates_isBracket rfl ht.closed, htext, hcut.2]
      rfl
    · rw [givenFrom, String.ofList_toList, givenFrom_bracketed fun m hm =>
        h m (List.mem_cons_of_mem _ hm)]

namespace GraphFilter

variable {f : GraphFilter}

/-- **What is written is read back.** -/
theorem read_write (h : f.Regular) : read f.write.toList = f := by
  obtain ⟨parts, hcut, hgiven⟩ := exists_cutFrom_text h.solid h.outputs
  have htaken : takenFrom (f.text.toList :: parts) = ([], f.text.toList :: parts) := by
    obtain ⟨c, cs, htext⟩ := List.exists_cons_of_ne_nil fun hnil =>
      h.text (String.toList_eq_nil_iff.1 hnil)
    rw [htext]
    rfl
  rw [read, write, String.toList_ofList, takenFrom_bracketed h.inputs, hcut, htaken]
  simp only [Prod.map_apply, id_eq, List.append_nil, List.headD_cons, hgiven, String.ofList_toList]

end GraphFilter

/-- **A text in which no filter ends:** it is closed, and none of its marks is a separator. -/
structure Endless (cs : List Char) : Prop where
  closed : Mode.outside.after cs = .outside
  marks : ∀ c ∈ marksFrom .outside cs, endsFilter c = false

instance (cs : List Char) : Decidable (Endless cs) :=
  decidable_of_iff (Mode.outside.after cs = .outside ∧
      (marksFrom .outside cs).all (fun c => !endsFilter c) = true)
    ⟨fun h => ⟨h.1, by simpa using h.2⟩, fun h => ⟨h.1, by simpa using h.2⟩⟩

namespace Endless

theorem append {cs ds : List Char} (hcs : Endless cs) (hds : Endless ds) : Endless (cs ++ ds) := by
  refine ⟨?_, ?_⟩
  · rw [Mode.after_append, hcs.closed, hds.closed]
  · rw [marksFrom_append, hcs.closed, List.forall_mem_append]
    exact ⟨hcs.marks, hds.marks⟩

theorem of_mute {cs : List Char} (h : Mute cs) : Endless cs := by
  refine ⟨h.closed, ?_⟩
  rw [h.marks]
  exact fun c hc => (List.not_mem_nil hc).elim

theorem of_solid {t : String} (h : Solid t) : Endless t.toList := by
  refine ⟨h.closed, fun c hc => ?_⟩
  rcases h.marks c hc with rfl | rfl <;> rfl

theorem bracketed {ls : List String} (h : ∀ l ∈ ls, Mute l.toList) :
    Endless (Filter.bracketed ls) := by
  have hopen : Endless ['['] := by decide
  have hshut : Endless [']'] := by decide
  induction ls with
  | nil =>
    show Endless []
    decide
  | cons l ls ih =>
    have hlabel := (hopen.append (.of_mute (h l List.mem_cons_self))).append hshut
    exact hlabel.append (ih fun m hm => h m (List.mem_cons_of_mem _ hm))

end Endless

namespace GraphFilter.Regular

variable {f : GraphFilter}

theorem endless (h : f.Regular) : Endless f.write.toList := by
  rw [write, String.toList_ofList]
  exact (Endless.bracketed h.inputs).append
    ((Endless.of_solid h.solid).append (.bracketed h.outputs))

/-- **A filter that is written** is the graph of it. -/
theorem graph_write (h : f.Regular) : graph f.write = [f] := by
  rw [graph, cut, cutFrom_of_forall separates_endsFilter h.endless.marks, List.map_singleton,
    read_write h]

/-- Behind a semicolon the graph goes on. -/
theorem graph_append (h : f.Regular) (t : String) : graph (f.write ++ ";" ++ t) = f :: graph t := by
  have htext : (f.write ++ ";" ++ t).toList = f.write.toList ++ ';' :: t.toList := by
    simp [String.toList_append]
  rw [graph, cut, htext, cutFrom_append separates_endsFilter rfl h.endless.closed,
    cutFrom_of_forall separates_endsFilter h.endless.marks, List.singleton_append, List.map_cons,
    read_write h]
  rfl

end GraphFilter.Regular

/-! ## Images -/

/-- The label of the picture that an image is laid over. -/
def baseLabel (n : Nat) : String := "base" ++ toString n

/-- The label of an image. -/
def overlayLabel (n : Nat) : String := "ovl" ++ toString n

/-- **The filters that lay an image over the picture:** one labels the picture, one reads the image
from its file, and one takes both and places the image. -/
def overlayFilters (n : Nat) (content : String) (xy : String × String) : List GraphFilter :=
  [⟨[], "null", [baseLabel n]⟩,
    ⟨[], "movie=" ++ quote (Text.unquoted content), [overlayLabel n]⟩,
    ⟨[baseLabel n, overlayLabel n], "overlay=" ++ xy.1 ++ ":" ++ xy.2, []⟩]

/-- The labels of those filters: each is given once, and taken once by the last one. -/
def overlayLabels (n : Nat) : List String :=
  [baseLabel n, overlayLabel n, baseLabel n, overlayLabel n]

theorem mute_label {name : String} (h : Mute name.toList) (n : Nat) :
    Mute (name ++ toString n).toList := by
  rw [String.toList_append]
  exact h.append (mute_of_numeral (Number.numeral_natToString n))

theorem mute_baseLabel (n : Nat) : Mute (baseLabel n).toList :=
  mute_label ⟨by decide, by decide⟩ n

theorem mute_overlayLabel (n : Nat) : Mute (overlayLabel n).toList :=
  mute_label ⟨by decide, by decide⟩ n

theorem regular_overlayFilters (n : Nat) (content : String) {xy : String × String}
    (hx : Solid xy.1) (hy : Solid xy.2) : ∀ f ∈ overlayFilters n content xy, f.Regular := by
  have hmovie : Solid ("movie=" ++ quote (Text.unquoted content)) := by
    have hname : Solid "movie=" := by decide
    exact hname.append (.of_mute (mute_quote _))
  have hplace : Solid ("overlay=" ++ xy.1 ++ ":" ++ xy.2) := by
    have hname : Solid "overlay=" := by decide
    have hcolon : Solid ":" := by decide
    exact ((hname.append hx).append hcolon).append hy
  have hnull : Solid "null" := by decide
  have hnone : ∀ l ∈ ([] : List String), Mute l.toList := fun l hl => (List.not_mem_nil hl).elim
  have hbase : ∀ l ∈ [baseLabel n], Mute l.toList := List.forall_mem_singleton.2 (mute_baseLabel n)
  have hoverlay : ∀ l ∈ [overlayLabel n], Mute l.toList :=
    List.forall_mem_singleton.2 (mute_overlayLabel n)
  intro f hf
  simp only [overlayFilters, List.mem_cons, List.not_mem_nil, or_false] at hf
  rcases hf with rfl | rfl | rfl
  · exact ⟨hnull, by simp, hnone, hbase⟩
  · exact ⟨hmovie, by simp [String.append_eq_empty_iff], hnone, hoverlay⟩
  · exact ⟨hplace, by simp [String.append_eq_empty_iff],
      List.forall_mem_cons.2 ⟨mute_baseLabel n, hoverlay⟩, hnone⟩

/-- **The fragment of an image** is the filters that lay it over the picture. -/
theorem graph_imageText {content t : String} {n : Nat} {place : Word Placement}
    (h : imageText (quote (Text.unquoted content)) n place = .ok t) :
    ∃ xy, imageCoordinates place = .ok xy ∧ graph t = overlayFilters n content xy := by
  simp only [imageText, bind_eq_ok] at h
  obtain ⟨⟨x, y⟩, hxy, h⟩ := h
  obtain ⟨hx, hy⟩ := solid_imageCoordinates place _ hxy
  obtain ⟨hpicture, hmovie, hoverlay, -⟩ : _ ∧ _ ∧ _ ∧ _ := by
    simpa only [overlayFilters, List.forall_mem_cons] using regular_overlayFilters n content hx hy
  refine ⟨(x, y), hxy, ?_⟩
  rw [overlayFilters, ← hoverlay.graph_write, ← hmovie.graph_append, ← hpicture.graph_append]
  congr 1
  rw [← Except.ok.inj h, ← String.toList_inj]
  simp [GraphFilter.write, bracketed, baseLabel, overlayLabel, String.toList_append]

theorem labels_imageText {content t : String} {n : Nat} {place : Word Placement}
    (h : imageText (quote (Text.unquoted content)) n place = .ok t) :
    labels t = overlayLabels n := by
  obtain ⟨xy, -, hgraph⟩ := graph_imageText h
  rw [labels, hgraph]
  rfl

/-- The fragment that a step comes to. -/
def Step.fragment? (s : Step) : Option String :=
  match s.outcome with
  | .ok (some a) => if a.destination = .videoFilter then a.words.head? else none
  | _ => none

/-- **The fragments of the images** among some commands that are built one after another, failures
being passed over. -/
def imageFragments (ctx : Context) (n : Nat) (cs : List Command) : List String :=
  (cs.zip (steps ctx n cs)).filterMap fun cs =>
    if cs.1.image?.isSome then cs.2.fragment? else none

variable {ctx : Context} {n : Nat} {c : Command} {cs : List Command} {t : String} {ts : List String}

/-- **The numbers of images never come back,** whether the commands before are built or fail. -/
theorem exists_labels_imageFragments (ctx : Context) (n : Nat) (cs : List Command) :
    ∃ ns : List Nat, (∀ k ∈ ns, n ≤ k) ∧ ns.Pairwise (· < ·) ∧
      (imageFragments ctx n cs).map labels = ns.map overlayLabels := by
  induction cs generalizing n with
  | nil => exact ⟨[], fun k hk => (List.not_mem_nil hk).elim, .nil, rfl⟩
  | cons c cs ih =>
    obtain ⟨ns, hfrom, hsorted, hlabels⟩ := ih (build ctx n c).images
    rcases hi : c.image? with _ | ⟨content, place⟩
    · -- it is no image, and the number stays
      rw [images_build ctx n hi] at hfrom
      refine ⟨ns, hfrom, hsorted, ?_⟩
      rw [imageFragments, steps, List.zip_cons_cons, List.filterMap_cons_none (by simp [hi])]
      exact hlabels
    · -- it takes its number, so that the others have greater ones
      rw [build_image hi] at hfrom
      rcases htext : imageText (quote (Text.unquoted content)) n place with f | t
      · refine ⟨ns, fun k hk => Nat.le_of_succ_le (hfrom k hk), hsorted, ?_⟩
        have hnone : (build ctx n c).fragment? = none := by
          rw [build_image hi, htext]
          rfl
        rw [imageFragments, steps, List.zip_cons_cons,
          List.filterMap_cons_none (by simp [hnone])]
        exact hlabels
      · have hsome : (build ctx n c).fragment? = some t := by
          rw [build_image hi, htext]
          rfl
        refine ⟨n :: ns, ?_, ?_, ?_⟩
        · exact List.forall_mem_cons.2 ⟨le_rfl, fun k hk => Nat.le_of_succ_le (hfrom k hk)⟩
        · exact .cons (fun k hk => hfrom k hk) hsorted
        · rw [imageFragments, steps, List.zip_cons_cons,
            List.filterMap_cons_some (b := t) (by simp [hi, hsome]), List.map_cons, List.map_cons,
            labels_imageText htext]
          exact congrArg (overlayLabels n :: ·) hlabels

/-- An image at an unknown place is not built, and its number is not used again. -/
example :
    (imageFragments ⟨none, none⟩ 0 [.burn (.known .image) "a.png" (.other "nowhere"),
      .burn (.known .image) "a.png" (.known .top)]).map labels = [overlayLabels 1] := by
  decide +kernel

/-! ## Chains with images -/

/-- **A fragment that is no image** has no labels. -/
theorem unlabelled_of_build (hc : c.isPicture = true) (ha : c.Aligned) (hi : c.image? = none)
    (h : (build ctx n c).outcome = .ok (some (.fragment t))) :
    (graph t).filter GraphFilter.isLabelled = [] := by
  obtain ⟨parts, rfl, hparts⟩ := exists_parts_of_build hc ha hi h
  have hsolid : ∀ p ∈ parts, Solid p := fun p hp =>
    have ⟨_, _, htitled⟩ := hparts p hp
    htitled.solid
  rw [filter_graph_intercalate fun p hp => (hsolid p hp).closed, List.flatMap_eq_nil_iff]
  exact fun p hp => (hsolid p hp).filter_graph

/-- An image of some number and the filters that lay it over the picture. -/
def LaysOver (image : (String × Word Placement) × Nat) (fs : List GraphFilter) : Prop :=
  ∃ xy, imageCoordinates image.1.2 = .ok xy ∧ fs = overlayFilters image.2 image.1.1 xy

theorem Builds.overlays (h : Builds ctx n cs ts) (ha : ∀ c ∈ cs, c.Aligned) :
    ∃ fss, List.Forall₂ LaysOver ((cs.filterMap Command.image?).zipIdx n) fss ∧
      (ts.flatMap fun t => (graph t).filter GraphFilter.isLabelled) = fss.flatten := by
  induction h with
  | nil => exact ⟨[], .nil, rfl⟩
  | @picture n c cs t ts hpicture hbuilt _ ih =>
    obtain ⟨fss, hfss, hlabelled⟩ := ih fun d hd => ha d (List.mem_cons_of_mem _ hd)
    rcases hi : c.image? with _ | ⟨content, place⟩
    · rw [images_build ctx n hi] at hfss
      refine ⟨fss, ?_, ?_⟩
      · rwa [List.filterMap_cons_none hi]
      · rw [List.flatMap_cons, hlabelled,
          unlabelled_of_build hpicture (ha c List.mem_cons_self) hi hbuilt, List.nil_append]
    · rw [build_image hi] at hfss hbuilt
      obtain ⟨xy, hxy, hgraph⟩ := graph_imageText (eq_of_fragmentOf hbuilt)
      refine ⟨overlayFilters n content xy :: fss, ?_, ?_⟩
      · rw [List.filterMap_cons_some hi, List.zipIdx_cons]
        exact .cons ⟨xy, hxy, rfl⟩ hfss
      · rw [List.flatMap_cons, hlabelled, hgraph]
        rfl
  | @other n c cs ts hother _ ih =>
    have hi : c.image? = none := by
      rcases c with _ | _ | _ | _ | _ | _ | _ | _ | _ | _ | _ | _ | _
      all_goals first | rfl | cases hother
    rw [List.filterMap_cons_none hi]
    exact ih fun d hd => ha d (List.mem_cons_of_mem _ hd)

/-! ## Counting labels -/

/-- A label tells its number. -/
theorem toString_inj {m n : Nat} (h : toString m = toString n) : m = n := by
  have hdigits : Nat.toDigits 10 m = Nat.toDigits 10 n := by
    rw [← Nat.toList_repr, ← Nat.toList_repr]
    exact congrArg String.toList h
  rw [← @Nat.ofDigitChars_ten_toDigits m, hdigits, Nat.ofDigitChars_ten_toDigits]

theorem baseLabel_inj {m n : Nat} (h : baseLabel m = baseLabel n) : m = n :=
  toString_inj ((String.append_right_inj "base").1 h)

theorem overlayLabel_inj {m n : Nat} (h : overlayLabel m = overlayLabel n) : m = n :=
  toString_inj ((String.append_right_inj "ovl").1 h)

theorem baseLabel_ne_overlayLabel (m n : Nat) : baseLabel m ≠ overlayLabel n := by
  intro h
  have hhead := congrArg (fun t => t.toList.head?) h
  simp [baseLabel, overlayLabel, String.toList_append] at hhead

/-- A label of an image. -/
def IsLabelOf (label : String) (n : Nat) : Prop := label = baseLabel n ∨ label = overlayLabel n

instance (label : String) (n : Nat) : Decidable (IsLabelOf label n) :=
  inferInstanceAs (Decidable (_ ∨ _))

/-- **No two images share a label.** -/
theorem IsLabelOf.unique {label : String} {m n : Nat} (hm : IsLabelOf label m)
    (hn : IsLabelOf label n) : m = n := by
  rcases hm with rfl | rfl
  · exact hn.elim baseLabel_inj fun h => absurd h (baseLabel_ne_overlayLabel m n)
  · exact hn.elim (fun h => absurd h.symm (baseLabel_ne_overlayLabel n m)) overlayLabel_inj

theorem count_overlayLabels (label : String) (n : Nat) :
    (overlayLabels n).count label = if IsLabelOf label n then 2 else 0 := by
  have hne := baseLabel_ne_overlayLabel n n
  by_cases hbase : label = baseLabel n
  · rw [if_pos (.inl hbase), hbase]
    simp [overlayLabels, hne.symm]
  · by_cases hoverlay : label = overlayLabel n
    · rw [if_pos (.inr hoverlay), hoverlay]
      simp [overlayLabels, hne]
    · have hother : ¬ IsLabelOf label n := not_or.2 ⟨hbase, hoverlay⟩
      rw [if_neg hother, List.count_eq_zero]
      simp [overlayLabels, hbase, hoverlay]

/-- **Every label** of the first images is there twice. -/
theorem count_flatMap_overlayLabels (label : String) (k : Nat) :
    ((List.range k).flatMap overlayLabels).count label =
      if ∃ i < k, IsLabelOf label i then 2 else 0 := by
  induction k with
  | zero => simp
  | succ k ih =>
    rw [List.range_succ, List.flatMap_append, List.count_append, ih, List.flatMap_singleton,
      count_overlayLabels]
    by_cases hlast : IsLabelOf label k
    · -- a label of the last image is none of an earlier one
      have hearlier : ¬ ∃ i < k, IsLabelOf label i := by
        rintro ⟨i, hi, hlabel⟩
        exact absurd (hlabel.unique hlast) hi.ne
      rw [if_neg hearlier, if_pos hlast, if_pos ⟨k, Nat.lt_succ_self k, hlast⟩]
    · have hsame : (∃ i < k + 1, IsLabelOf label i) ↔ ∃ i < k, IsLabelOf label i := by
        constructor
        · rintro ⟨i, hi, hlabel⟩
          rcases Nat.lt_succ_iff_lt_or_eq.1 hi with hi | rfl
          · exact ⟨i, hi, hlabel⟩
          · exact absurd hlabel hlast
        · rintro ⟨i, hi, hlabel⟩
          exact ⟨i, Nat.lt_succ_of_lt hi, hlabel⟩
      rw [if_neg hlast, Nat.add_zero]
      simp only [hsame]

/-- The labels of images that are laid over the picture are those of their numbers. -/
theorem labels_of_laysOver {images : List (String × Word Placement)} {n : Nat}
    {fss : List (List GraphFilter)} (h : List.Forall₂ LaysOver (images.zipIdx n) fss) :
    fss.flatten.flatMap GraphFilter.labels =
      (List.range' n images.length).flatMap overlayLabels := by
  induction images generalizing n fss with
  | nil =>
    obtain rfl := List.forall₂_nil_left_iff.1 h
    rfl
  | cons image images ih =>
    rw [List.zipIdx_cons] at h
    obtain ⟨fs, fss, ⟨xy, -, rfl⟩, hfss, rfl⟩ := List.forall₂_cons_left_iff.1 h
    rw [List.flatten_cons, List.flatMap_append, ih hfss, List.length_cons, List.range'_succ,
      List.flatMap_cons]
    rfl

/-- Only labelled filters have labels. -/
theorem labels_eq (chain : String) :
    labels chain = ((graph chain).filter GraphFilter.isLabelled).flatMap GraphFilter.labels := by
  rw [labels]
  induction graph chain with
  | nil => rfl
  | cons f fs ih =>
    by_cases hf : f.isLabelled = true
    · rw [List.filter_cons_of_pos hf, List.flatMap_cons, List.flatMap_cons, ih]
    · have hnone : f.labels = [] := by simpa [GraphFilter.isLabelled] using hf
      rw [List.filter_cons_of_neg hf, List.flatMap_cons, hnone, List.nil_append, ih]

end Filter

/-! ## Compiled scripts -/

variable {text : String} {descriptor : Option Descriptor} {settings : Settings} {c : Compilation}

/-- Merging crops leaves the images. -/
theorem image?_mergeCrops {commands merged : List Command}
    (h : mergeCrops commands descriptor = .ok merged) :
    merged.filterMap Command.image? = commands.filterMap Command.image? :=
  filterMap_mergeCrops (fun _ _ => rfl) (fun _ _ => rfl) h

/-- **Images never share labels, and the graph closes.** Whatever commands are built one after
another, and whichever of them fail, the numbers of the images that are built grow. In a script
that is compiled the labels are those of the images: in the order of the script each image has
three filters, of which the first two give its labels and the last one takes both, no other
filter has labels, and each label is there twice. -/
theorem overlays_close :
    (∀ (ctx : Filter.Context) (cs : List Command), ∃ ns : List Nat, ns.Pairwise (· < ·) ∧
      (Filter.imageFragments ctx 0 cs).map Filter.labels = ns.map Filter.overlayLabels) ∧
    ∀ (text : String) (descriptor : Option Descriptor) (settings : Settings) (c : Compilation),
      compile text descriptor settings = .ok c →
      ∃ l : CommandLine, l.Fits c.commands descriptor settings ∧
        c.args = l.args c.commands settings.overwrite ∧
        let chain := String.intercalate "," l.fragments
        let images := c.commands.filterMap Command.image?
        (∃ fss, List.Forall₂ Filter.LaysOver images.zipIdx fss ∧
          (Filter.graph chain).filter Filter.GraphFilter.isLabelled = fss.flatten) ∧
        ∀ label, (Filter.labels chain).count label =
          if ∃ i < images.length, Filter.IsLabelOf label i then 2 else 0 := by
  refine ⟨fun ctx cs => ?_, fun text descriptor settings c h => ?_⟩
  · obtain ⟨ns, -, hsorted, hlabels⟩ := Filter.exists_labels_imageFragments ctx 0 cs
    exact ⟨ns, hsorted, hlabels⟩
  · obtain ⟨s, -, hdraft⟩ := compile_ok h
    obtain ⟨l, hfits, hargs⟩ := exists_commandLine hdraft
    have haligned := aligned_of_mergeCrops (aligned_of_compile h) hfits.merged
    obtain ⟨fss, hfss, hlabelled⟩ := hfits.fragments.overlays haligned
    rw [← Filter.filter_graph_intercalate (hfits.fragments.closed haligned)] at hlabelled
    rw [image?_mergeCrops hfits.merged] at hfss
    refine ⟨l, hfits, hargs, ⟨fss, hfss, hlabelled⟩, fun label => ?_⟩
    rw [Filter.labels_eq, hlabelled, Filter.labels_of_laysOver hfss, ← List.range_eq_range',
      Filter.count_flatMap_overlayLabels]

/-- A script with two images, and texts that look like labels. -/
def twoImages : String :=
  "burn image \"a.png\" at top-left\nburn text \"[base0][ovl1]\" at top\n" ++
    "burn image \"[base1].png\" at right"

theorem overlays_close_twoImages :
    ∃ c, compile twoImages none {} = .ok c ∧
      c.args = ["-i", "input.mp4", "-vf",
        "null[base0];movie=a.png[ovl0];[base0][ovl0]overlay=10:10," ++
          "drawtext=text='[base0][ovl1]':fontsize=24:fontcolor=white:x=(w-text_w)/2:y=10," ++
          "null[base1];movie='[base1].png'[ovl1];[base1][ovl1]overlay=W-w-10:(H-h)/2",
        "output.mp4"] ∧
      ∃ l : CommandLine, l.Fits c.commands none {} ∧ c.args = l.args c.commands false ∧
        (Filter.labels (String.intercalate "," l.fragments)).count "base0" = 2 ∧
        (Filter.labels (String.intercalate "," l.fragments)).count "ovl1" = 2 ∧
        (Filter.labels (String.intercalate "," l.fragments)).count "base2" = 0 := by
  have hresult : (compile twoImages none {}).toOption.map
      (fun c => (c.args, (c.commands.filterMap Command.image?).length)) =
      some (["-i", "input.mp4", "-vf",
        "null[base0];movie=a.png[ovl0];[base0][ovl0]overlay=10:10," ++
          "drawtext=text='[base0][ovl1]':fontsize=24:fontcolor=white:x=(w-text_w)/2:y=10," ++
          "null[base1];movie='[base1].png'[ovl1];[base1][ovl1]overlay=W-w-10:(H-h)/2",
        "output.mp4"], 2) := by
    decide +kernel
  rcases hc : compile twoImages none {} with f | c
  · rw [hc] at hresult
    cases hresult
  · rw [hc] at hresult
    obtain ⟨hargs, himages⟩ := Prod.mk.inj (Option.some.inj hresult)
    obtain ⟨l, hfits, hl, -, hcount⟩ := overlays_close.2 _ _ _ c hc
    rw [himages] at hcount
    refine ⟨c, rfl, hargs, l, hfits, hl, ?_, ?_, ?_⟩
    · rw [hcount, if_pos ⟨0, by decide, .inl rfl⟩]
    · rw [hcount, if_pos ⟨1, by decide, .inr rfl⟩]
    · rw [hcount, if_neg (by decide)]

end ClipScript
