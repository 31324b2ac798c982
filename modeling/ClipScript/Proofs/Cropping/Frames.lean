/-
# The frame along a chain

What a whole chain of filters makes of the frame. As the encoder cuts it, the chain is
walked filter by filter (`Region.walk?`): cropping has to keep a rectangle of the frame
that is there, scaling to `w:h` sets its size, and any other filter leaves it as it is.
Crops are read as in `Region.filter?`.

What a filter does to the frame is decided by its name, which stands in front of the first
`=`. A filter with a text in it is single, because its texts are quoted, so no part of a text
can be taken for a filter. A command whose filters have names other than those of crops and
scales therefore leaves the frame, the others do what is said of them in `reframed?`, and the
chain of a script does what its commands do one after another (`walk?_builds`).
-/
import ClipScript.Proofs.Cropping.Merging
import ClipScript.Proofs.Filter.Texts

set_option autoImplicit false

namespace ClipScript

variable {ctx : Filter.Context} {n : Nat} {c : Command} {t : String} {r frame : Region}

/-! ## Walking along a chain -/

namespace Region

/-- **What one filter makes of the frame.** -/
def applied? (r : Region) (filter : List Char) : Option Region :=
  let name := filter.takeWhile (· != '=')
  if name = "crop".toList then r.filter? filter
  else if name = "scale".toList then
    match (filter.drop (name.length + 1)).splitOn ':' with
    | [width, height] => do return ⟨0, 0, ← r.value? width, ← r.value? height⟩
    | _ => none
  else some r

/-- What filters one after another make of the frame. -/
def appliedAll? (r : Region) (filters : List (List Char)) : Option Region :=
  filters.foldlM applied? r

/-- **What a chain makes of the frame,** if all its crops fit what they are applied to. -/
def walk? (r : Region) (chain : String) : Option Region := r.appliedAll? (Filter.filtersOf chain)

theorem appliedAll?_append (fs gs : List (List Char)) :
    r.appliedAll? (fs ++ gs) = (r.appliedAll? fs).bind fun r => r.appliedAll? gs :=
  List.foldlM_append

theorem appliedAll?_singleton (f : List Char) : r.appliedAll? [f] = r.applied? f := by
  rw [appliedAll?, List.foldlM_cons]
  exact Option.bind_fun_some _

/-- Along closed texts that are joined the walk goes over the filters of each. -/
theorem walk?_intercalate {ts : List String} (h : ∀ t ∈ ts, Filter.Closed t) :
    r.walk? (String.intercalate "," ts) = r.appliedAll? (ts.flatMap Filter.filtersOf) := by
  by_cases hnil : ts = []
  · subst hnil
    rfl
  · rw [walk?, Filter.filtersOf_intercalate hnil h]

theorem walk?_of_single (h : Filter.Single t) : r.walk? t = r.applied? t.toList := by
  rw [walk?, h.filtersOf_eq, appliedAll?_singleton]

/-- Other names than those of crops and scales. -/
abbrev Opening (name : String) : Prop := Filter.Apart ["crop", "scale"] name

/-- **Filters of other names** leave the frame. -/
theorem walk?_of_named {name : String} (h : Opening name) (ht : Filter.Named name t) :
    r.walk? t = some r := by
  rw [walk?_of_single ht.single, applied?, if_neg (h.takeWhile_ne (by decide) ht.opens),
    if_neg (h.takeWhile_ne (by decide) ht.opens)]

/-- Such filters that are joined leave it too. -/
theorem walk?_intercalate_of_named {names : List String} (h : ∀ name ∈ names, Opening name)
    {parts : List String} (hparts : ∀ p ∈ parts, ∃ name ∈ names, Filter.Named name p) :
    r.walk? (String.intercalate "," parts) = some r := by
  have hclosed : ∀ p ∈ parts, Filter.Closed p := fun p hp =>
    have ⟨_, _, hnamed⟩ := hparts p hp
    hnamed.single.closed
  rw [walk?_intercalate hclosed]
  clear hclosed
  induction parts with
  | nil => rfl
  | cons p parts ih =>
    obtain ⟨name, hname, hp⟩ := hparts p List.mem_cons_self
    rw [List.flatMap_cons, appliedAll?_append, show r.appliedAll? (Filter.filtersOf p) = some r from
      walk?_of_named (h name hname) hp, Option.bind_some]
    exact ih fun q hq => hparts q (List.mem_cons_of_mem _ hq)

/-- Detecting borders leaves the frame. -/
theorem walk?_borderFilter : r.walk? borderFilter = some r := by
  have hopening : Opening "cropdetect" := by decide
  exact walk?_of_named hopening Filter.titled_borderFilter.named

theorem walk?_border_append (ht : Filter.Closed t) :
    r.walk? (borderFilter ++ "," ++ t) = r.walk? t := by
  have hclosed : ∀ u ∈ [borderFilter, t], Filter.Closed u :=
    List.forall_mem_cons.2 ⟨Filter.titled_borderFilter.solid.closed, List.forall_mem_singleton.2 ht⟩
  rw [show borderFilter ++ "," ++ t = String.intercalate "," [borderFilter, t] from rfl,
    walk?_intercalate hclosed, List.flatMap_cons, List.flatMap_singleton, appliedAll?_append,
    show r.appliedAll? (Filter.filtersOf borderFilter) = some r from walk?_borderFilter]
  rfl

/-! ## What commands do to the frame -/

/-- Cropping a frame by the numbers of another one, which are what some margins leave of that. -/
def cut? (frame r : Region) (m : Margins) : Option Region :=
  r.keep? (frame.width - m.horizontal) (frame.height - m.vertical) m.left m.top

/-- **What a command makes of the frame,** when crops are written for a frame that is known. -/
def reframed? (frame r : Region) : Command → Option Region
  | .scale width height _ => some ⟨0, 0, width, height⟩
  | .crop size side => if size = 0 then some r else cut? frame r (.ofCrop size side)
  | .mergedCrop m _ => if m.horizontal = 0 ∧ m.vertical = 0 then some r else cut? frame r m
  | _ => some r

end Region

/-- **A command whose numbers can be read back:** sizes that are not negative, and no aspect ratio
to be kept. -/
def Command.Literal : Command → Prop
  | .scale width height aspect => 0 ≤ width ∧ 0 ≤ height ∧ aspect = .known .ignore
  | .crop size _ => 0 ≤ size
  | .mergedCrop m _ => m.Nonneg
  | _ => True

namespace Region

/-- **Scaling** sets the size of the frame. -/
theorem walk?_scaleText {width height : Int} (hwidth : 0 ≤ width) (hheight : 0 ≤ height)
    (h : Filter.scaleText width height (.known .ignore) = .ok t) :
    r.walk? t = some ⟨0, 0, width, height⟩ := by
  rw [walk?_of_single (Filter.titled_scaleText _ _ _ t h).solid.single]
  simp only [Filter.scaleText, bind_eq_ok] at h
  obtain ⟨w, hw, d, hd, h⟩ := h
  obtain ⟨rfl, -⟩ := Number.writeInt_ok_iff.1 hw
  obtain ⟨rfl, -⟩ := Number.writeInt_ok_iff.1 hd
  obtain ⟨⟨-, -, hcolon⟩, hw⟩ := r.says_toString hwidth
  obtain ⟨⟨-, -, hcolon'⟩, hd⟩ := r.says_toString hheight
  have htext : t.toList =
      "scale".toList ++ '=' :: ((toString width).toList ++ ':' :: (toString height).toList) := by
    rw [← Except.ok.inj h, if_neg (by decide)]
    simp
  rw [htext, applied?, Filter.takeWhile_name (by decide), if_neg (by decide), if_pos rfl,
    List.drop_length_add_append, List.drop_one, List.tail_cons,
    List.splitOn_append_cons_self_of_not_mem hcolon, List.splitOn_eq_singleton hcolon']
  simp only [hw, hd]
  rfl

/-- **A crop that is written for a known frame** cuts by the numbers of that frame, whatever frame
it is applied to. -/
theorem walk?_filter {d : Option Descriptor} {m : Margins} (hm : m.Nonneg)
    (hd : d.bind Descriptor.frame? = some (frame.width, frame.height)) (h : m.filter d = .ok t) :
    frame.Fits m ∧ r.walk? t = cut? frame r m := by
  rw [walk?_of_single (Filter.titled_filter m d t h).solid.single]
  obtain ⟨width, height, rfl, hsize⟩ := exists_of_filter (.inr hd) h
  rcases hsize with ⟨hnone, -⟩ | ⟨hbounds, -, rfl, rfl⟩
  · rw [hd] at hnone
    cases hnone
  · have hfits := (checkBounds_ok_iff hd).1 hbounds
    obtain ⟨hwidth, hheight⟩ := hfits
    have hname : (cropFilter (toString (frame.width - m.horizontal))
        (toString (frame.height - m.vertical)) (toString m.left)
          (toString m.top)).toList.takeWhile (· != '=') = "crop".toList := by
      rw [toList_cropFilter, Filter.takeWhile_name (by decide)]
    refine ⟨⟨hwidth, hheight⟩, ?_⟩
    rw [applied?, if_pos hname]
    exact (filter?_cropFilter (r.says_toString (by omega)) (r.says_toString (by omega))
      (r.says_toString hm.left) (r.says_toString hm.top)).2

/-- A crop of no pixels detects borders, any other cuts. -/
theorem walk?_cropText {d : Option Descriptor} {size : Int} {side : Word Side} (hsize : 0 ≤ size)
    (hd : d.bind Descriptor.frame? = some (frame.width, frame.height))
    (h : Filter.cropText size side d = .ok t) :
    r.walk? t = reframed? frame r (.crop size side) := by
  rw [Filter.cropText, total_singleton] at h
  rw [reframed?]
  split
  · next hzero =>
    rw [if_pos hzero] at h
    obtain rfl := Except.ok.inj h
    exact walk?_borderFilter
  · next hzero =>
    rw [if_neg hzero] at h
    exact (walk?_filter (Margins.nonneg_ofCrop hsize side) hd h).2

/-- A merged crop cuts, after detecting borders or not. -/
theorem walk?_mergedCropText {d : Option Descriptor} {m : Margins} {detect : Bool} (hm : m.Nonneg)
    (hd : d.bind Descriptor.frame? = some (frame.width, frame.height))
    (h : Filter.mergedCropText m detect d = .ok t) :
    r.walk? t = reframed? frame r (.mergedCrop m detect) := by
  rw [Filter.mergedCropText] at h
  rw [reframed?]
  split
  · next hzero =>
    rw [if_pos hzero] at h
    obtain rfl := Except.ok.inj h
    exact walk?_borderFilter
  · next hzero =>
    rw [if_neg hzero] at h
    rcases hfilter : m.filter d with f | u
    · rw [hfilter] at h
      cases h
    · rw [hfilter] at h
      obtain rfl := Except.ok.inj h
      rw [← (walk?_filter (r := r) hm hd hfilter).2]
      split
      · exact walk?_border_append (Filter.titled_filter m _ u hfilter).solid.closed
      · rfl

/-- **A command whose filters have other names** leaves the frame. -/
theorem walk?_of_filterNames (hnames : ∀ name ∈ c.filterNames, Opening name)
    (hpicture : c.isPicture = true) (ha : c.Aligned)
    (h : (Filter.build ctx n c).outcome = .ok (some (.fragment t))) : r.walk? t = some r := by
  have hnull : Opening "null" := by decide
  obtain ⟨parts, rfl, hparts⟩ := Filter.exists_named_of_build hpicture ha h
  exact walk?_intercalate_of_named (List.forall_mem_cons.2 ⟨hnull, hnames⟩) hparts

/-- **A command does to the frame what is said of it.** -/
theorem walk?_build (hd : ctx.descriptor.bind Descriptor.frame? = some (frame.width, frame.height))
    (hpicture : c.isPicture = true) (ha : c.Aligned) (hc : c.Literal)
    (h : (Filter.build ctx n c).outcome = .ok (some (.fragment t))) :
    r.walk? t = reframed? frame r c := by
  rcases c with _ | _ | _ | ⟨width, height, aspect⟩ | ⟨size, side⟩ | ⟨m, detect⟩ |
    ⟨direction, duration⟩ | ⟨kind, content, place⟩ | ⟨text, place, alignment, margin⟩ | cycle |
    _ | _ | _
  case scale =>
    obtain ⟨hwidth, hheight, rfl⟩ := hc
    exact walk?_scaleText hwidth hheight (Filter.eq_of_fragmentOf h)
  case crop => exact walk?_cropText hc hd (Filter.eq_of_fragmentOf h)
  case mergedCrop => exact walk?_mergedCropText hc hd (Filter.eq_of_fragmentOf h)
  case burn =>
    refine walk?_of_filterNames ?_ hpicture ha h
    rcases kind with (_ | _ | _) | _
    all_goals simp only [Command.filterNames]
    all_goals decide
  case fade | caption | deduplicate =>
    refine walk?_of_filterNames ?_ hpicture ha h
    simp only [Command.filterNames]
    decide
  all_goals cases hpicture

/-- A command without a filter leaves the frame. -/
theorem reframed?_of_not_isPicture (hc : c.isPicture = false) :
    reframed? frame r c = some r := by
  cases c
  all_goals first | rfl | cases hc

end Region

/-- **The chain of commands** does to the frame what they do one after another. -/
theorem Region.walk?_builds
    (hd : ctx.descriptor.bind Descriptor.frame? = some (frame.width, frame.height))
    {cs : List Command} {ts : List String} (h : Filter.Builds ctx n cs ts)
    (ha : ∀ c ∈ cs, c.Aligned) (hc : ∀ c ∈ cs, c.Literal) :
    r.walk? (String.intercalate "," ts) = cs.foldlM (reframed? frame) r := by
  rw [walk?_intercalate (h.closed ha)]
  induction h generalizing r with
  | nil => rfl
  | @picture n c cs t ts hpicture hbuilt _ ih =>
    rw [List.flatMap_cons, appliedAll?_append, List.foldlM_cons]
    have hfirst : r.appliedAll? (Filter.filtersOf t) = reframed? frame r c :=
      walk?_build hd hpicture (ha c List.mem_cons_self) (hc c List.mem_cons_self) hbuilt
    rw [hfirst]
    refine Option.bind_congr fun r' _ => ?_
    exact ih (fun d hd => ha d (List.mem_cons_of_mem _ hd))
      fun d hd => hc d (List.mem_cons_of_mem _ hd)
  | @other n c cs ts hother _ ih =>
    rw [List.foldlM_cons, reframed?_of_not_isPicture hother]
    exact ih (fun d hd => ha d (List.mem_cons_of_mem _ hd))
      fun d hd => hc d (List.mem_cons_of_mem _ hd)

end ClipScript
