/-
# Merging keeps the region

Crops one after another keep what is left without the sum of their margins, as long as
that is anything: margins are not negative, so what fits in the end fitted at every step
(`keptBy?_only` and `keptBy?_of_fits`, by induction on the crops, from the region that
those before them left). Merging adds the margins up and checks the sum. So it refuses
exactly the crops that go wrong at some step, and the filter of the merged crop keeps the
same region (`merging_keeps`), in both of its forms.

The numbers of a filter are written with at most `digitLimit` digits, so a filter with a
larger one is refused (`Writes`). That never happens to what fits a frame whose own size
can be written (`writes_of_merged`), and so `merging_keeps` is about such frames. A larger
frame has room for crops that are merged but cannot be written (`mergeCrops_wideCrops`).
-/
import ClipScript.Proofs.Cropping.Bounds
import ClipScript.Proofs.Cropping.Region

set_option autoImplicit false

namespace ClipScript

open Number

variable {d : Option Descriptor} {ctx : Filter.Context} {r : Region} {m n : Margins} {t : String}

/-! ## Margins of a region -/

/-- Margins that are not negative. -/
structure Margins.Nonneg (m : Margins) : Prop where
  left : 0 ≤ m.left
  right : 0 ≤ m.right
  top : 0 ≤ m.top
  bottom : 0 ≤ m.bottom

theorem Margins.Nonneg.zero : Margins.zero.Nonneg := ⟨le_rfl, le_rfl, le_rfl, le_rfl⟩

theorem Margins.Nonneg.add (hm : m.Nonneg) (hn : n.Nonneg) : (m.add n).Nonneg :=
  ⟨add_nonneg hm.left hn.left, add_nonneg hm.right hn.right, add_nonneg hm.top hn.top,
    add_nonneg hm.bottom hn.bottom⟩

theorem Margins.nonneg_ofCrop {size : Int} (h : 0 ≤ size) (side : Word Side) :
    (Margins.ofCrop size side).Nonneg := by
  have hpart : ∀ b : Bool, 0 ≤ if b then size else 0 := by
    intro b
    split
    · exact h
    · exact le_rfl
  rcases side with side | _
  · exact ⟨hpart _, hpart _, hpart _, hpart _⟩
  · exact .zero

theorem Margins.zero_add (m : Margins) : Margins.zero.add m = m := by
  simp [Margins.add, Margins.zero]

theorem Margins.add_assoc (l m n : Margins) : (l.add m).add n = l.add (m.add n) := by
  simp [Margins.add, Int.add_assoc]

/-- The margins of several crops are those of the first and those of the others. -/
theorem total_cons (c : Int × Word Side) (cs : List (Int × Word Side)) :
    Margins.total (c :: cs) = (Margins.ofCrop c.1 c.2).add (Margins.total cs) := by
  have hfold : ∀ (cs : List (Int × Word Side)) (l m : Margins),
      cs.foldl (fun m c => m.add (.ofCrop c.1 c.2)) (l.add m) =
        l.add (cs.foldl (fun m c => m.add (.ofCrop c.1 c.2)) m) := by
    intro cs
    induction cs with
    | nil => intro l m; rfl
    | cons c cs ih =>
      intro l m
      rw [List.foldl_cons, Margins.add_assoc, ih, List.foldl_cons]
  have hzero : (Margins.ofCrop c.1 c.2).add .zero = .ofCrop c.1 c.2 := by
    simp [Margins.add, Margins.zero]
  rw [Margins.total, List.foldl_cons, Margins.zero_add, ← hzero, hfold, hzero, Margins.total]

theorem nonneg_total {cs : List (Int × Word Side)} (h : ∀ c ∈ cs, 0 ≤ c.1) :
    (Margins.total cs).Nonneg := by
  induction cs with
  | nil => exact .zero
  | cons c cs ih =>
    rw [total_cons]
    exact (Margins.nonneg_ofCrop (h c List.mem_cons_self) c.2).add
      (ih fun x hx => h x (List.mem_cons_of_mem _ hx))

/-- The crops of some sizes and sides. -/
def cropCommands (cs : List (Int × Side)) : List Command := cs.map fun c => .crop c.1 (.known c.2)

/-- Their sizes and sides, as the margins are summed up from. -/
def cropMargins (cs : List (Int × Side)) : List (Int × Word Side) :=
  cs.map fun c => (c.1, .known c.2)

theorem total_cropMargins_cons (c : Int × Side) (cs : List (Int × Side)) :
    Margins.total (cropMargins (c :: cs)) =
      (Margins.ofCrop c.1 (.known c.2)).add (Margins.total (cropMargins cs)) :=
  total_cons _ _

theorem nonneg_cropMargins {cs : List (Int × Side)} (h : ∀ c ∈ cs, 0 ≤ c.1) :
    (Margins.total (cropMargins cs)).Nonneg := by
  refine nonneg_total fun x hx => ?_
  obtain ⟨y, hy, rfl⟩ := List.mem_map.1 hx
  exact h y hy

/-- **Merging crops alone** leaves nothing but the merged crop. -/
theorem mergeCrops_cropCommands {cs : List (Int × Side)} (hmany : 2 ≤ cs.length)
    (d : Option Descriptor) :
    (∃ f, (Margins.total (cropMargins cs)).checkBounds d = .error f ∧
        mergeCrops (cropCommands cs) d = .error f) ∨
      ∃ detect, (Margins.total (cropMargins cs)).checkBounds d = .ok () ∧
        mergeCrops (cropCommands cs) d =
          .ok [.mergedCrop (Margins.total (cropMargins cs)) detect] := by
  have hcrops : crops (cropCommands cs) = cropMargins cs := by
    rw [crops, cropCommands, List.filterMap_map]
    exact congrFun List.filterMap_eq_map cs
  have hrest : (cropCommands cs).filter (fun c => c.crop?.isNone) = [] := by
    refine List.filter_eq_nil_iff.2 fun c hc => ?_
    obtain ⟨x, -, rfl⟩ := List.mem_map.1 hc
    simp [Command.crop?]
  have hmerge := mergeCrops_cases (cropCommands cs) d
  rw [hcrops, hrest, cropMargins, List.length_map] at hmerge
  rcases hmerge with ⟨hfew, -⟩ | ⟨-, hmerge⟩
  · omega
  · exact hmerge

namespace Region

/-- **A region with something in it.** -/
structure Proper (r : Region) : Prop where
  width : 0 < r.width
  height : 0 < r.height

theorem shrink_zero (r : Region) : r.shrink .zero = r := by
  simp [shrink, Margins.zero, Margins.horizontal, Margins.vertical]

theorem Proper.fits_zero (h : r.Proper) : r.Fits .zero := ⟨h.width, h.height⟩

/-- Taking margins away one after another. -/
theorem shrink_add (r : Region) (m n : Margins) : r.shrink (m.add n) = (r.shrink m).shrink n := by
  simp only [shrink, Margins.add, Margins.horizontal, Margins.vertical, Region.mk.injEq]
  omega

/-- Margins fit together exactly if the second ones fit what the first ones leave. -/
theorem fits_add (hn : n.Nonneg) : r.Fits (m.add n) ↔ r.Fits m ∧ (r.shrink m).Fits n := by
  obtain ⟨hleft, hright, htop, hbottom⟩ := hn
  simp only [Fits, shrink, Margins.add, Margins.horizontal, Margins.vertical]
  omega

theorem Proper.shrink (hfits : r.Fits m) : (r.shrink m).Proper :=
  ⟨Int.sub_pos_of_lt hfits.1, Int.sub_pos_of_lt hfits.2⟩

/-- Margins that fit together fit alone. -/
theorem fits_of_add (hm : m.Nonneg) (hn : n.Nonneg) (h : r.Fits (m.add n)) :
    r.Fits m ∧ r.Fits n := by
  obtain ⟨hleft, hright, htop, hbottom⟩ := hm
  obtain ⟨hleft', hright', htop', hbottom'⟩ := hn
  simp only [Fits, Margins.add, Margins.horizontal, Margins.vertical] at *
  omega

/-- **Keeping what is left** without some margins. -/
theorem keep?_shrink (hm : m.Nonneg) :
    r.keep? (r.width - m.horizontal) (r.height - m.vertical) m.left m.top =
      if r.Fits m then some (r.shrink m) else none := by
  obtain ⟨hleft, hright, htop, hbottom⟩ := hm
  rw [keep?]
  by_cases hfits : r.Fits m
  · rw [if_pos hfits, if_pos]
    · rfl
    · simp only [Fits, Margins.horizontal, Margins.vertical] at hfits ⊢
      omega
  · rw [if_neg hfits, if_neg]
    simp only [Fits, Margins.horizontal, Margins.vertical] at hfits ⊢
    omega

/-! ## The filter of some margins -/

/-- The frame is unknown to the compiler, or the region is as large as the frame that is known. -/
def Matches (r : Region) (d : Option Descriptor) : Prop :=
  d.bind Descriptor.frame? = none ∨ d.bind Descriptor.frame? = some (r.width, r.height)

/-- **The parts of a filter that is written.** -/
theorem exists_of_filter (hd : r.Matches d) (h : m.filter d = .ok t) :
    ∃ width height, t = cropFilter width height (toString m.left) (toString m.top) ∧
      (d.bind Descriptor.frame? = none ∧ remaining "iw" m.horizontal = .ok width ∧
          remaining "ih" m.vertical = .ok height ∨
        m.checkBounds d = .ok () ∧ d.bind Descriptor.frame? = some (r.width, r.height) ∧
          width = toString (r.width - m.horizontal) ∧
          height = toString (r.height - m.vertical)) := by
  rw [Margins.filter, bind_eq_ok] at h
  obtain ⟨⟨⟩, hbounds, h⟩ := h
  rcases hd with hd | hd
  · simp only [hd, bind_eq_ok] at h
    obtain ⟨width, hwidth, height, hheight, _, ⟨⟩, left, hleft, top, htop, ⟨⟩⟩ := h
    rw [(writeInt_ok_iff.1 hleft).1, (writeInt_ok_iff.1 htop).1]
    exact ⟨width, height, rfl, .inl ⟨hd, hwidth, hheight⟩⟩
  · simp only [hd, bind_eq_ok] at h
    obtain ⟨width, hwidth, height, hheight, _, ⟨⟩, left, hleft, top, htop, ⟨⟩⟩ := h
    rw [(writeInt_ok_iff.1 hleft).1, (writeInt_ok_iff.1 htop).1]
    exact ⟨width, height, rfl,
      .inr ⟨hbounds, hd, (writeInt_ok_iff.1 hwidth).1, (writeInt_ok_iff.1 hheight).1⟩⟩

/-- Bounds hold exactly for margins that fit. -/
theorem checkBounds_ok_iff (hd : d.bind Descriptor.frame? = some (r.width, r.height)) :
    m.checkBounds d = .ok () ↔ r.Fits m := by
  have hexceeds : (∃ f, m.checkBounds d = .error f) ↔ ¬ r.Fits m := by
    rw [exists_checkBounds_error]
    simp only [hd, Option.some.injEq, Prod.mk.injEq, Margins.Exceeds, Fits]
    constructor
    · rintro ⟨_, _, ⟨rfl, rfl⟩, h⟩
      omega
    · exact fun h => ⟨_, _, ⟨rfl, rfl⟩, by omega⟩
  rcases hbounds : m.checkBounds d with f | ⟨⟩
  · have hnot := hexceeds.1 ⟨f, hbounds⟩
    exact ⟨by rintro ⟨⟩, fun h => absurd h hnot⟩
  · refine ⟨fun _ => ?_, fun _ => rfl⟩
    by_contra hnot
    obtain ⟨f, hf⟩ := hexceeds.2 hnot
    cases hbounds.symm.trans hf

/-- **The filter of some margins** takes them away. -/
theorem through?_filter (hm : m.Nonneg) (hd : r.Matches d) (h : m.filter d = .ok t) :
    ',' ∉ t.toList ∧ r.through? t = if r.Fits m then some (r.shrink m) else none := by
  obtain ⟨width, height, rfl, hsize⟩ := exists_of_filter hd h
  have hsays : r.Says width (r.width - m.horizontal) ∧ r.Says height (r.height - m.vertical) := by
    rcases hsize with ⟨-, hwidth, hheight⟩ | ⟨hbounds, hframe, rfl, rfl⟩
    · -- the names of the two sizes, with the margins taken away
      have hunseparated : Unseparated "iw".toList ∧ Unseparated "ih".toList := by
        simp [Unseparated]
      exact ⟨says_remaining hunseparated.1 (by decide) rfl (add_nonneg hm.left hm.right) hwidth,
        says_remaining hunseparated.2 (by decide) rfl (add_nonneg hm.top hm.bottom) hheight⟩
    · -- two numbers, which are positive
      obtain ⟨hwidth, hheight⟩ := (checkBounds_ok_iff hframe).1 hbounds
      exact ⟨says_toString (by omega), says_toString (by omega)⟩
  obtain ⟨hcomma, hfilter⟩ :=
    filter?_cropFilter hsays.1 hsays.2 (says_toString hm.left) (says_toString hm.top)
  exact ⟨hcomma, by rw [through?_of_not_mem hcomma, hfilter, keep?_shrink hm]⟩

/-- **Margins that fit** have a filter, unless a number in it is too long. -/
theorem filter_of_fits (hd : r.Matches d) (hfits : r.Fits m)
    (hwritten : m.filter d ≠ .error .numeralTooLong) : ∃ t, m.filter d = .ok t := by
  rcases hfilter : m.filter d with f | t
  · rcases Filter.filter_failsOnly m d f hfilter with rfl | hbounds
    · exact absurd hfilter hwritten
    · rcases hd with hd | hd
      · rw [Margins.checkBounds, hd] at hbounds
        cases hbounds
      · cases hbounds.symm.trans ((checkBounds_ok_iff hd).2 hfits)
  · exact ⟨t, rfl⟩

/-- In a frame whose size can be written, no number that fits is too long. -/
theorem filter_ne_tooLong (hd : r.Matches d) (hm : m.Nonneg) (hfits : r.Fits m)
    (hwidth : r.width < 10 ^ digitLimit) (hheight : r.height < 10 ^ digitLimit) :
    m.filter d ≠ .error .numeralTooLong := by
  have hwrite : ∀ {k : Int}, 0 ≤ k → k < 10 ^ digitLimit → writeInt k = .ok (toString k) := by
    intro k h0 hlt
    refine writeInt_ok_iff.2 ⟨rfl, ?_⟩
    rw [← Int.natAbs_of_nonneg h0] at hlt
    exact_mod_cast hlt
  have hremaining : ∀ {dimension : String} {taken : Int}, 0 ≤ taken → taken < 10 ^ digitLimit →
      ∃ t, remaining dimension taken = .ok t := by
    intro dimension taken h0 hlt
    rw [remaining, hwrite h0 hlt]
    split
    · exact ⟨_, rfl⟩
    · exact ⟨_, rfl⟩
  obtain ⟨hleft, hright, htop, hbottom⟩ := hm
  obtain ⟨hhorizontal, hvertical⟩ := hfits
  simp only [Margins.horizontal, Margins.vertical] at hhorizontal hvertical
  have hx := hwrite hleft (by omega)
  have hy := hwrite htop (by omega)
  rcases hd with hd | hd
  · obtain ⟨width, hw⟩ := @hremaining "iw" m.horizontal (add_nonneg hleft hright)
      (by rw [Margins.horizontal]; omega)
    obtain ⟨height, hh⟩ := @hremaining "ih" m.vertical (add_nonneg htop hbottom)
      (by rw [Margins.vertical]; omega)
    have hbounds : m.checkBounds d = .ok () := by rw [Margins.checkBounds, hd]
    rw [Margins.filter]
    simp only [hbounds, hd, hw, hh, hx, hy, bind, Except.bind]
    rintro ⟨⟩
  · have hw := @hwrite (r.width - m.horizontal)
      (by rw [Margins.horizontal]; omega) (by rw [Margins.horizontal]; omega)
    have hh := @hwrite (r.height - m.vertical)
      (by rw [Margins.vertical]; omega) (by rw [Margins.vertical]; omega)
    have hbounds : m.checkBounds d = .ok () := (checkBounds_ok_iff hd).2 ⟨hhorizontal, hvertical⟩
    rw [Margins.filter]
    simp only [hbounds, hd, hw, hh, hx, hy, bind, Except.bind]
    rintro ⟨⟩

/-! ## What commands keep -/

/-- What the filter of a command keeps, if it has one. -/
def kept? (r : Region) (ctx : Filter.Context) (c : Command) : Option Region :=
  match (Filter.build ctx 0 c).outcome with
  | .ok (some a) => r.through? a.value
  | _ => none

/-- **What the filters of commands keep,** each applied to what the one before it kept. -/
def keptBy? (r : Region) (ctx : Filter.Context) (cs : List Command) : Option Region :=
  cs.foldlM (fun r c => r.kept? ctx c) r

end Region

/-- **A command is written:** building it does not reach the limit on digits. -/
def Filter.Context.Writes (ctx : Filter.Context) (c : Command) : Prop :=
  (Filter.build ctx 0 c).outcome ≠ .error .numeralTooLong

namespace Region

/-- **A command that takes margins away** from a region: what its filter keeps is what they leave,
and it does keep that if they fit and it can be written, as it can for a region of such a size. -/
structure Takes (r : Region) (ctx : Filter.Context) (c : Command) (m : Margins) : Prop where
  only : ∀ r', r.kept? ctx c = some r' → r.Fits m ∧ r' = r.shrink m
  keeps : r.Fits m → ctx.Writes c → r.kept? ctx c = some (r.shrink m)
  written : r.Fits m → r.width < 10 ^ digitLimit → r.height < 10 ^ digitLimit → ctx.Writes c

variable {c : Command}

theorem kept?_of_fragment (text : Except Fault String)
    (hc : (Filter.build ctx 0 c).outcome = Filter.fragmentOf text) :
    r.kept? ctx c = text.toOption.bind r.through? := by
  rw [kept?, hc]
  rcases text with f | t
  · rfl
  · show r.through? (String.intercalate " " [t]) = _
    rw [String.intercalate_singleton]
    rfl

/-- Detecting borders takes nothing away. -/
theorem takes_border (hr : r.Proper)
    (hc : (Filter.build ctx 0 c).outcome = Filter.fragmentOf (.ok borderFilter)) :
    r.Takes ctx c .zero := by
  have hkept : r.kept? ctx c = some (r.shrink .zero) := by
    rw [kept?_of_fragment _ hc, shrink_zero]
    exact through?_borderFilter r
  refine ⟨fun r' h => ⟨hr.fits_zero, Option.some.inj (h.symm.trans hkept)⟩, fun _ _ => hkept, ?_⟩
  intro _ _ _
  rw [Filter.Context.Writes, hc]
  rintro ⟨⟩

/-- **A filter of some margins** takes them away, whatever is put before it to detect borders. -/
theorem takes_filter (hm : m.Nonneg) (hd : r.Matches ctx.descriptor) {before : String → String}
    (hbefore : ∀ t, r.through? (before t) = r.through? t)
    (hc : (Filter.build ctx 0 c).outcome =
      Filter.fragmentOf ((m.filter ctx.descriptor).map before)) :
    r.Takes ctx c m := by
  rw [Filter.fragmentOf] at hc
  constructor
  · intro r' h
    rw [kept?_of_fragment _ hc] at h
    rcases hfilter : m.filter ctx.descriptor with f | t
    · rw [hfilter] at h
      cases h
    · rw [hfilter] at h
      have hthrough : r.through? (before t) = some r' := h
      rw [hbefore, (through?_filter hm hd hfilter).2] at hthrough
      split at hthrough
      · next hfits => exact ⟨hfits, (Option.some.inj hthrough).symm⟩
      · cases hthrough
  · intro hfits hwrites
    obtain ⟨t, ht⟩ := filter_of_fits hd hfits fun hlong => hwrites (by rw [hc, hlong]; rfl)
    rw [kept?_of_fragment _ hc, ht]
    show r.through? (before t) = _
    rw [hbefore, (through?_filter hm hd ht).2, if_pos hfits]
  · intro hfits hwidth hheight
    have hshort := filter_ne_tooLong hd hm hfits hwidth hheight
    rw [Filter.Context.Writes, hc]
    rcases hfilter : m.filter ctx.descriptor with f | t
    · rintro h
      obtain rfl := Except.error.inj h
      exact hshort hfilter
    · rintro ⟨⟩

theorem total_singleton (size : Int) (side : Word Side) :
    Margins.total [(size, side)] = .ofCrop size side := by
  rw [total_cons, Margins.total, List.foldl_nil]
  simp [Margins.add, Margins.zero]

/-- **One crop** takes its margins away. -/
theorem takes_crop {size : Int} (side : Word Side) (hr : r.Proper) (hsize : 0 ≤ size)
    (hctx : r.Matches ctx.descriptor) : r.Takes ctx (.crop size side) (.ofCrop size side) := by
  have hc : (Filter.build ctx 0 (.crop size side)).outcome =
      Filter.fragmentOf (Filter.cropText size side ctx.descriptor) := rfl
  rw [Filter.cropText, total_singleton] at hc
  by_cases hzero : size = 0
  · -- a crop of no pixels detects borders
    rw [if_pos hzero] at hc
    rw [← total_singleton, hzero, total_zero, ← hzero]
    exact takes_border hr hc
  · rw [if_neg hzero] at hc
    refine @takes_filter ctx r (.ofCrop size side) _ (Margins.nonneg_ofCrop hsize side) hctx id
      (fun _ => rfl) ?_
    rw [hc]
    rcases (Margins.ofCrop size side).filter ctx.descriptor with f | t
    · rfl
    · rfl

/-- **The merged crop** takes its margins away, detecting borders or not. -/
theorem takes_mergedCrop (detect : Bool) (hr : r.Proper) (hm : m.Nonneg)
    (hctx : r.Matches ctx.descriptor) : r.Takes ctx (.mergedCrop m detect) m := by
  have hc : (Filter.build ctx 0 (.mergedCrop m detect)).outcome =
      Filter.fragmentOf (Filter.mergedCropText m detect ctx.descriptor) := rfl
  rw [Filter.mergedCropText] at hc
  by_cases hzero : m.horizontal = 0 ∧ m.vertical = 0
  · obtain rfl : m = .zero := by
      obtain ⟨hleft, hright, htop, hbottom⟩ := hm
      obtain ⟨hhorizontal, hvertical⟩ := hzero
      simp only [Margins.horizontal, Margins.vertical] at hhorizontal hvertical
      cases m
      simp only [Margins.zero, Margins.mk.injEq] at *
      omega
    rw [if_pos hzero] at hc
    exact takes_border hr hc
  · rw [if_neg hzero] at hc
    refine takes_filter hm hctx (fun t => ?_) hc
    rcases detect with _ | _
    · rfl
    · exact through?_border_append t

/-! ## Crops one after another -/

/-- Crops that fit together fit each alone. -/
theorem fits_of_mem {cs : List (Int × Side)} (hcs : ∀ c ∈ cs, 0 ≤ c.1)
    (hfits : r.Fits (.total (cropMargins cs))) :
    ∀ c ∈ cs, r.Fits (.ofCrop c.1 (.known c.2)) := by
  induction cs with
  | nil => exact fun c hc => absurd hc List.not_mem_nil
  | cons c cs ih =>
    have hrest : ∀ x ∈ cs, 0 ≤ x.1 := fun x hx => hcs x (List.mem_cons_of_mem _ hx)
    rw [total_cropMargins_cons] at hfits
    obtain ⟨hfirst, hothers⟩ := fits_of_add
      (Margins.nonneg_ofCrop (hcs c List.mem_cons_self) _) (nonneg_cropMargins hrest) hfits
    exact List.forall_mem_cons.2 ⟨hfirst, ih hrest hothers⟩

/-- **Crops one after another** keep only what the sum of their margins leaves. -/
theorem keptBy?_only {cs : List (Int × Side)} (hcs : ∀ c ∈ cs, 0 ≤ c.1) (hr : r.Proper)
    (hctx : ctx.descriptor.bind Descriptor.frame? = none) {r' : Region}
    (h : r.keptBy? ctx (cropCommands cs) = some r') :
    r.Fits (.total (cropMargins cs)) ∧ r' = r.shrink (.total (cropMargins cs)) := by
  induction cs generalizing r with
  | nil =>
    obtain rfl := Option.some.inj h
    exact ⟨hr.fits_zero, (shrink_zero r).symm⟩
  | cons c cs ih =>
    have hrest : ∀ x ∈ cs, 0 ≤ x.1 := fun x hx => hcs x (List.mem_cons_of_mem _ hx)
    rw [cropCommands, List.map_cons, keptBy?, List.foldlM_cons] at h
    obtain ⟨r₁, hkept, h⟩ := Option.bind_eq_some_iff.1 h
    -- the first crop fits, and the others fit what it leaves
    obtain ⟨hfits, rfl⟩ :=
      (takes_crop (.known c.2) hr (hcs c List.mem_cons_self) (.inl hctx)).only r₁ hkept
    obtain ⟨hfits', rfl⟩ := ih hrest (Proper.shrink hfits) h
    rw [total_cropMargins_cons, shrink_add, fits_add (nonneg_cropMargins hrest)]
    exact ⟨⟨hfits, hfits'⟩, rfl⟩

/-- **Crops that fit together** are all valid, one after another. -/
theorem keptBy?_of_fits {cs : List (Int × Side)} (hcs : ∀ c ∈ cs, 0 ≤ c.1) (hr : r.Proper)
    (hctx : ctx.descriptor.bind Descriptor.frame? = none)
    (hwrites : ∀ c ∈ cropCommands cs, ctx.Writes c) (hfits : r.Fits (.total (cropMargins cs))) :
    r.keptBy? ctx (cropCommands cs) = some (r.shrink (.total (cropMargins cs))) := by
  induction cs generalizing r with
  | nil =>
    rw [cropMargins, List.map_nil, Margins.total, List.foldl_nil, shrink_zero]
    rfl
  | cons c cs ih =>
    have hrest : ∀ x ∈ cs, 0 ≤ x.1 := fun x hx => hcs x (List.mem_cons_of_mem _ hx)
    rw [total_cropMargins_cons, fits_add (nonneg_cropMargins hrest)] at hfits
    have hkept := (takes_crop (.known c.2) hr (hcs c List.mem_cons_self) (.inl hctx)).keeps hfits.1
      (hwrites _ List.mem_cons_self)
    rw [cropCommands, List.map_cons, keptBy?, List.foldlM_cons, hkept, total_cropMargins_cons,
      shrink_add]
    exact ih hrest (Proper.shrink hfits.1) (fun x hx => hwrites x (List.mem_cons_of_mem _ hx))
      hfits.2

end Region

/-- **Crops that are merged for a frame** whose size can be written are written themselves. -/
theorem writes_of_merged {width height : Int} {cs : List (Int × Side)} (hmany : 2 ≤ cs.length)
    (hcs : ∀ c ∈ cs, 0 ≤ c.1) {known unknown : Filter.Context}
    (hknown : known.descriptor.bind Descriptor.frame? = some (width, height))
    (hunknown : unknown.descriptor.bind Descriptor.frame? = none)
    (hwidth : width < 10 ^ digitLimit) (hheight : height < 10 ^ digitLimit)
    {merged : List Command} (h : mergeCrops (cropCommands cs) known.descriptor = .ok merged) :
    (∀ c ∈ cropCommands cs ++ merged, unknown.Writes c) ∧ ∀ c ∈ merged, known.Writes c := by
  have hnonneg := nonneg_cropMargins hcs
  rcases mergeCrops_cropCommands hmany known.descriptor with
    ⟨f, -, hfailed⟩ | ⟨detect, hbounds, hmerged⟩
  · cases hfailed.symm.trans h
  obtain rfl := Except.ok.inj (hmerged.symm.trans h)
  have hfits : Region.Fits ⟨0, 0, width, height⟩ (.total (cropMargins cs)) :=
    (Region.checkBounds_ok_iff hknown).1 hbounds
  have hframe : Region.Proper ⟨0, 0, width, height⟩ :=
    ⟨(add_nonneg hnonneg.left hnonneg.right).trans_lt hfits.1,
      (add_nonneg hnonneg.top hnonneg.bottom).trans_lt hfits.2⟩
  have htotal : ∀ {ctx : Filter.Context}, Region.Matches ⟨0, 0, width, height⟩ ctx.descriptor →
      ctx.Writes (.mergedCrop (.total (cropMargins cs)) detect) := fun hctx =>
    (Region.takes_mergedCrop detect hframe hnonneg hctx).written hfits hwidth hheight
  refine ⟨?_, List.forall_mem_singleton.2 (htotal (.inr hknown))⟩
  intro c hc
  rcases List.mem_append.1 hc with hc | hc
  · obtain ⟨x, hx, rfl⟩ := List.mem_map.1 hc
    exact (Region.takes_crop (.known x.2) hframe (hcs x hx) (.inl hunknown)).written
      (Region.fits_of_mem hcs hfits x hx) hwidth hheight
  · rw [List.mem_singleton.1 hc]
    exact htotal (.inl hunknown)

/-! ## Merging -/

/-- **Merging keeps the region.** Two or more crops are merged for a frame, whose size can be
written, exactly if their filters are valid one after another, and the filter of the merged crop
keeps the same, whether it is built for the frame or without knowing it. -/
theorem merging_keeps {width height : Int} (hwidth : 0 < width) (hheight : 0 < height)
    (hwidth' : width < 10 ^ digitLimit) (hheight' : height < 10 ^ digitLimit)
    {cs : List (Int × Side)} (hmany : 2 ≤ cs.length) (hcs : ∀ c ∈ cs, 0 ≤ c.1)
    {known unknown : Filter.Context}
    (hknown : known.descriptor.bind Descriptor.frame? = some (width, height))
    (hunknown : unknown.descriptor.bind Descriptor.frame? = none) :
    ((∃ r, Region.keptBy? ⟨0, 0, width, height⟩ unknown (cropCommands cs) = some r) ↔
      ∃ merged, mergeCrops (cropCommands cs) known.descriptor = .ok merged) ∧
    ∀ merged, mergeCrops (cropCommands cs) known.descriptor = .ok merged →
      ∃ m detect r, merged = [.mergedCrop m detect] ∧
        Region.keptBy? ⟨0, 0, width, height⟩ unknown (cropCommands cs) = some r ∧
        Region.kept? ⟨0, 0, width, height⟩ known (.mergedCrop m detect) = some r ∧
        Region.kept? ⟨0, 0, width, height⟩ unknown (.mergedCrop m detect) = some r := by
  have hframe : Region.Proper ⟨0, 0, width, height⟩ := ⟨hwidth, hheight⟩
  have hnonneg := nonneg_cropMargins hcs
  rcases mergeCrops_cropCommands hmany known.descriptor with
    ⟨f, hbounds, hfailed⟩ | ⟨detect, hbounds, hmerged⟩
  · -- nothing is left of the frame, so some step goes wrong
    have hnot : ¬ Region.Fits ⟨0, 0, width, height⟩ (.total (cropMargins cs)) := by
      rw [← Region.checkBounds_ok_iff hknown, hbounds]
      rintro ⟨⟩
    rw [hfailed]
    refine ⟨⟨?_, by rintro ⟨_, ⟨⟩⟩⟩, by rintro _ ⟨⟩⟩
    rintro ⟨r, hr⟩
    exact absurd (Region.keptBy?_only hcs hframe hunknown hr).1 hnot
  · have hfits : Region.Fits ⟨0, 0, width, height⟩ (.total (cropMargins cs)) :=
      (Region.checkBounds_ok_iff hknown).1 hbounds
    obtain ⟨hwrites, hwrites'⟩ :=
      writes_of_merged hmany hcs hknown hunknown hwidth' hheight' hmerged
    have hsteps := Region.keptBy?_of_fits hcs hframe hunknown
      (fun c hc => hwrites c (List.mem_append_left _ hc)) hfits
    refine ⟨⟨fun _ => ⟨_, hmerged⟩, fun _ => ⟨_, hsteps⟩⟩, ?_⟩
    intro merged h
    obtain rfl := Except.ok.inj (hmerged.symm.trans h)
    refine ⟨_, detect, _, rfl, hsteps, ?_, ?_⟩
    · exact (Region.takes_mergedCrop detect hframe hnonneg (.inr hknown)).keeps hfits
        (hwrites' _ List.mem_cons_self)
    · exact (Region.takes_mergedCrop detect hframe hnonneg (.inl hunknown)).keeps hfits
        (hwrites _ (List.mem_append_right _ List.mem_cons_self))

/-- Three crops, one of which only detects borders. -/
def threeCrops : List (Int × Side) := [(10, .left), (0, .top), (5, .each)]

theorem merging_keeps_threeCrops :
    ∃ m detect, mergeCrops (cropCommands threeCrops) (some smallFile) = .ok [.mergedCrop m detect] ∧
      Region.kept? ⟨0, 0, 100, 50⟩ ⟨some smallFile, none⟩ (.mergedCrop m detect) =
        some ⟨15, 5, 80, 40⟩ ∧
      Region.kept? ⟨0, 0, 100, 50⟩ ⟨none, none⟩ (.mergedCrop m detect) = some ⟨15, 5, 80, 40⟩ := by
  have hcs : ∀ c ∈ threeCrops, 0 ≤ c.1 := by decide
  have hwritten : ∀ n : Int, n < 10 ^ 3 → n < 10 ^ digitLimit := fun n hn =>
    hn.trans_le (pow_le_pow_right₀ (by decide) (by decide))
  obtain ⟨hvalid, hkeeps⟩ := @merging_keeps 100 50 (by decide) (by decide)
    (hwritten 100 (by decide)) (hwritten 50 (by decide)) threeCrops (by decide) hcs
    ⟨some smallFile, none⟩ ⟨none, none⟩ rfl rfl
  have hsteps : Region.keptBy? ⟨0, 0, 100, 50⟩ ⟨none, none⟩ (cropCommands threeCrops) =
      some ⟨15, 5, 80, 40⟩ := by
    decide +kernel
  obtain ⟨merged, hmerged⟩ := hvalid.1 ⟨_, hsteps⟩
  obtain ⟨m, detect, r, rfl, hsteps', hknown, hunknown⟩ := hkeeps merged hmerged
  obtain rfl := Option.some.inj (hsteps.symm.trans hsteps')
  exact ⟨m, detect, hmerged, hknown, hunknown⟩

/-! ## A frame that cannot be written -/

/-- **A crop that takes too much of the width** has no filter without knowing the frame: the number
in it has too many digits. -/
theorem Region.kept?_crop_of_wide {size : Int} {side : Word Side} (hctx : ctx.descriptor = none)
    (hlong : 10 ^ digitLimit ≤ (Margins.ofCrop size side).horizontal.natAbs) :
    r.kept? ctx (.crop size side) = none := by
  have hzero : (Margins.ofCrop size side).horizontal ≠ 0 := by
    intro h
    rw [h, Int.natAbs_zero, Nat.le_zero] at hlong
    exact absurd hlong (Nat.pos_iff_ne_zero.1 (Nat.pow_pos (by decide)))
  have hsize : size ≠ 0 := by
    rintro rfl
    rw [← Region.total_singleton, total_zero] at hzero
    exact hzero rfl
  have hc : (Filter.build ctx 0 (.crop size side)).outcome =
      Filter.fragmentOf (Filter.cropText size side ctx.descriptor) := rfl
  rw [Region.kept?_of_fragment _ hc, Filter.cropText, if_neg hsize, Region.total_singleton, hctx]
  rcases hfilter : (Margins.ofCrop size side).filter none with f | t
  · rfl
  · -- a filter would have the number in it
    exfalso
    obtain ⟨width, height, -, ⟨-, hremaining, -⟩ | ⟨-, hframe, -⟩⟩ :=
      @Region.exists_of_filter none r _ t (.inl rfl) hfilter
    · rw [remaining, if_neg hzero, bind_eq_ok] at hremaining
      obtain ⟨written, hwritten, -⟩ := hremaining
      exact absurd (writeInt_ok_iff.1 hwritten).2 (by omega)
    · cases hframe

/-- Two crops, the first of which takes its size from both sides. -/
def wideCrops (size : Int) : List (Int × Side) := [(size, .width), (1, .left)]

/-- A file with a single line of pixels. -/
def flatFile (width : Int) : Descriptor := { width := some width, height := some 1 }

/-- **Not all crops that are merged have filters:** in a frame whose width cannot be written, two
crops of numbers that can be read leave something of the width, but the first alone takes more of it
than can be written. -/
theorem mergeCrops_wideCrops :
    (∃ merged, mergeCrops (cropCommands (wideCrops (10 ^ digitLimit - 1)))
        (some (flatFile (2 * 10 ^ digitLimit))) = .ok merged) ∧
      Region.keptBy? ⟨0, 0, 2 * 10 ^ digitLimit, 1⟩ ⟨none, none⟩
        (cropCommands (wideCrops (10 ^ digitLimit - 1))) = none ∧
      ¬ ∀ (width height : Int) (cs : List (Int × Side)) (known unknown : Filter.Context),
        0 < width → 0 < height → 2 ≤ cs.length → (∀ c ∈ cs, 0 ≤ c.1) →
        known.descriptor.bind Descriptor.frame? = some (width, height) →
        unknown.descriptor.bind Descriptor.frame? = none →
        ((∃ r, Region.keptBy? ⟨0, 0, width, height⟩ unknown (cropCommands cs) = some r) ↔
          ∃ merged, mergeCrops (cropCommands cs) known.descriptor = .ok merged) := by
  have hlarge : (2 : Int) ≤ 10 ^ digitLimit :=
    calc (2 : Int) ≤ 10 ^ 1 := by norm_num
      _ ≤ 10 ^ digitLimit := pow_le_pow_right₀ (by norm_num) (by decide)
  have hcast : (10 : Int) ^ digitLimit = ((10 ^ digitLimit : Nat) : Int) := (Nat.cast_pow 10 _).symm
  have hwide (size : Int) : (Margins.ofCrop size (.known .width)).horizontal = size + size := by
    simp [Margins.ofCrop, Side.takesLeft, Side.takesRight, Margins.horizontal]
  have htotal (size : Int) :
      Margins.total (cropMargins (wideCrops size)) = ⟨size + 1, size, 0, 0⟩ := by
    simp [wideCrops, cropMargins, Margins.total, Margins.ofCrop, Side.takesLeft, Side.takesRight,
      Side.takesTop, Side.takesBottom, Margins.add, Margins.zero]
  have hkept : Region.keptBy? ⟨0, 0, 2 * 10 ^ digitLimit, 1⟩ ⟨none, none⟩
      (cropCommands (wideCrops (10 ^ digitLimit - 1))) = none := by
    rw [wideCrops, cropCommands, List.map_cons, Region.keptBy?, List.foldlM_cons,
      Region.kept?_crop_of_wide rfl (by rw [hwide]; omega)]
    rfl
  -- nothing else is used of the limit, so that no power is computed
  generalize (10 : Int) ^ digitLimit = limit at *
  have hframe : (some (flatFile (2 * limit))).bind Descriptor.frame? = some (2 * limit, 1) := by
    simp [flatFile, Descriptor.frame?]
    omega
  have hmerged : ∃ merged, mergeCrops (cropCommands (wideCrops (limit - 1)))
      (some (flatFile (2 * limit))) = .ok merged := by
    have hfits : Region.Fits ⟨0, 0, 2 * limit, 1⟩
        (.total (cropMargins (wideCrops (limit - 1)))) := by
      rw [htotal]
      simp only [Region.Fits, Margins.horizontal, Margins.vertical]
      omega
    rcases @mergeCrops_cropCommands (wideCrops (limit - 1)) (Nat.le_refl 2)
      (some (flatFile (2 * limit))) with ⟨f, hf, -⟩ | ⟨detect, -, hmerged⟩
    · rw [(Region.checkBounds_ok_iff hframe).2 hfits] at hf
      cases hf
    · exact ⟨_, hmerged⟩
  refine ⟨hmerged, hkept, fun hall => ?_⟩
  have hiff := hall (2 * limit) 1 (wideCrops (limit - 1)) ⟨some (flatFile (2 * limit)), none⟩
    ⟨none, none⟩ (by omega) (by decide) (Nat.le_refl 2)
    (by simp only [wideCrops, List.forall_mem_cons]; exact ⟨by omega, by decide, by simp⟩)
    hframe rfl
  obtain ⟨r, hr⟩ := hiff.2 hmerged
  cases hkept.symm.trans hr

end ClipScript
