/-
# Crops edge by edge

What several crops take from an edge of the frame is the sum of the sizes of those whose side
touches it (`along_total`). A sum has no order, so crops in another order have the same margins
(`total_perm`). Merging looks at nothing but the margins, at whether some crop takes no pixels,
and at the other commands, which stay in their order; so it comes to the same for all orders of
the crops, wherever they stand among the others (`mergeCrops_eq`). What it leaves has no crops
any more, and merging it again changes nothing (`mergeCrops_merged`).

When the crops leave nothing of the frame, the fault mentions their totals. A total can have
more digits than can be written although every size has been read, and then the fault is no
crop fault, since its message cannot be put together (`isCropBounds_iff_of_checkBounds`). That is
the same for all orders too.
-/
import ClipScript.Proofs.Cropping.Merging

set_option autoImplicit false

namespace ClipScript

open Number

variable {commands others merged : List Command} {descriptor : Option Descriptor} {m n : Margins}
  {f : Fault}

/-! ## Edges -/

/-- The edges of the frame. -/
inductive Edge where
  | left
  | right
  | top
  | bottom
deriving DecidableEq, Repr

/-- The edges that a side stands for. -/
def Side.edges : Side → List Edge
  | .left => [.left]
  | .right => [.right]
  | .top => [.top]
  | .bottom => [.bottom]
  | .width => [.left, .right]
  | .height => [.top, .bottom]
  | .each => [.left, .right, .top, .bottom]

/-- Whether a side touches an edge; one outside the vocabulary touches none. -/
def Word.touches : Word Side → Edge → Bool
  | .known side, e => side.edges.contains e
  | .other _, _ => false

/-- The pixels that are taken from an edge. -/
def Margins.along (m : Margins) : Edge → Int
  | .left => m.left
  | .right => m.right
  | .top => m.top
  | .bottom => m.bottom

/-- **The sizes of the crops that touch an edge.** -/
def sizesAlong (e : Edge) (cs : List (Int × Word Side)) : List Int :=
  (cs.filter fun c => c.2.touches e).map Prod.fst

/-- Margins are known edge by edge. -/
theorem Margins.ext_along (h : ∀ e, m.along e = n.along e) : m = n := by
  obtain ⟨left, right, top, bottom⟩ := m
  obtain ⟨left', right', top', bottom'⟩ := n
  simp only [Margins.mk.injEq]
  exact ⟨h .left, h .right, h .top, h .bottom⟩

theorem along_add (m n : Margins) (e : Edge) : (m.add n).along e = m.along e + n.along e := by
  cases e <;> rfl

/-- One crop takes its size from the edges that its side touches. -/
theorem along_ofCrop (size : Int) (side : Word Side) (e : Edge) :
    (Margins.ofCrop size side).along e = if side.touches e then size else 0 := by
  rcases side with side | text
  · cases side <;> cases e <;> rfl
  · cases e <;> rfl

/-- **What several crops take from an edge** is the sum of the sizes of those that touch it. -/
theorem along_total (cs : List (Int × Word Side)) (e : Edge) :
    (Margins.total cs).along e = (sizesAlong e cs).sum := by
  induction cs with
  | nil => cases e <;> rfl
  | cons c cs ih =>
    rw [total_cons, along_add, along_ofCrop, ih, sizesAlong, sizesAlong, List.filter_cons]
    split
    · rw [List.map_cons, List.sum_cons]
    · rw [Int.zero_add]

/-- **Crops in another order** have the same margins. -/
theorem total_perm {cs ds : List (Int × Word Side)} (h : cs.Perm ds) :
    Margins.total cs = Margins.total ds := by
  refine Margins.ext_along fun e => ?_
  rw [along_total, along_total]
  exact ((h.filter _).map _).sum_eq

/-! ## Merging -/

/-- The commands that are no crops, in their order. -/
def otherCommands (commands : List Command) : List Command :=
  commands.filter fun c => c.crop?.isNone

/-- **The same crops among the same other commands,** whatever the order of the crops is and where
they stand. -/
structure SameCrops (cs ds : List Command) : Prop where
  others : otherCommands cs = otherCommands ds
  crops : (crops cs).Perm (crops ds)

/-- **Merging depends only on which crops there are.** -/
theorem mergeCrops_eq (h : SameCrops commands others) (hmany : 2 ≤ (crops commands).length)
    (descriptor : Option Descriptor) :
    mergeCrops commands descriptor = mergeCrops others descriptor := by
  have hlength := h.crops.length_eq
  have hdetect : ((crops commands).any fun c => c.1 == 0) =
      (crops others).any fun c => c.1 == 0 := h.crops.any_eq
  have hothers : (commands.filter fun c => c.crop?.isNone) =
      others.filter fun c => c.crop?.isNone := h.others
  simp only [mergeCrops]
  rw [if_neg (by omega), if_neg (by omega), total_perm h.crops, hdetect, hothers]

theorem crops_otherCommands (commands : List Command) : crops (otherCommands commands) = [] := by
  rw [crops, List.filterMap_eq_nil_iff]
  intro c hc
  exact Option.isNone_iff_eq_none.1 (List.mem_filter.1 hc).2

/-- **What several crops become:** one that takes from each edge the sizes of those that touch it,
and detects borders if one of them takes no pixels. -/
theorem exists_of_mergeCrops (hmany : 2 ≤ (crops commands).length)
    (h : mergeCrops commands descriptor = .ok merged) :
    ∃ m detect, merged = .mergedCrop m detect :: otherCommands commands ∧
      (∀ e, m.along e = (sizesAlong e (crops commands)).sum) ∧
      (detect = true ↔ ∃ c ∈ crops commands, c.1 = 0) := by
  simp only [mergeCrops] at h
  rw [if_neg (by omega), bind_eq_ok] at h
  obtain ⟨_, -, h⟩ := h
  refine ⟨_, _, (Except.ok.inj h).symm, along_total _, ?_⟩
  simp only [List.any_eq_true, beq_iff_eq]

/-- **Merging again** changes nothing. -/
theorem mergeCrops_merged (h : mergeCrops commands descriptor = .ok merged) :
    mergeCrops merged descriptor = .ok merged := by
  by_cases hfew : (crops commands).length < 2
  · have hsame : mergeCrops commands descriptor = .ok commands := if_pos hfew
    obtain rfl := Except.ok.inj (hsame.symm.trans h)
    exact hsame
  · obtain ⟨m, detect, rfl, -⟩ := exists_of_mergeCrops (by omega) h
    -- the merged crop is no crop itself
    have hnone : crops (.mergedCrop m detect :: otherCommands commands) = [] :=
      crops_otherCommands commands
    refine if_pos ?_
    rw [hnone]
    decide

/-! ## What the fault mentions -/

/-- **The numbers that the fault of some margins mentions,** if they leave nothing of the frame. -/
def Margins.complaint (m : Margins) (width height : Int) : List Int :=
  if width ≤ m.horizontal then [m.left, m.right, m.horizontal, width]
  else if height ≤ m.vertical then [m.top, m.bottom, m.vertical, height]
  else []

/-- **Margins whose fault cannot be written:** they leave nothing of a frame that is known, and a
number that says so has too many digits. -/
def Margins.Unwritable (m : Margins) (descriptor : Option Descriptor) : Prop :=
  ∃ width height, descriptor.bind Descriptor.frame? = some (width, height) ∧
    ∃ k ∈ m.complaint width height, 10 ^ digitLimit ≤ k.natAbs

/-- Some numbers can be written exactly if none of them has too many digits. -/
theorem exists_mapM_writeInt {numbers : List Int} :
    (∃ ts, numbers.mapM writeInt = .ok ts) ↔ ∀ k ∈ numbers, k.natAbs < 10 ^ digitLimit := by
  induction numbers with
  | nil => simp [pure, Except.pure]
  | cons k ks ih =>
    simp only [List.mapM_cons, bind_eq_ok, writeInt_ok_iff, List.forall_mem_cons, ← ih]
    constructor
    · rintro ⟨_, _, ⟨-, hk⟩, ts, hts, -⟩
      exact ⟨hk, ts, hts⟩
    · rintro ⟨hk, ts, hts⟩
      exact ⟨_, _, ⟨rfl, hk⟩, ts, hts, rfl⟩

/-- **A crop fault stays one** exactly if all the numbers in it can be written. -/
theorem isCropBounds_faultWith {numbers : List Int} (hf : f.isCropBounds = true) :
    (faultWith numbers f).isCropBounds = true ↔ ∀ k ∈ numbers, k.natAbs < 10 ^ digitLimit := by
  rw [← exists_mapM_writeInt, faultWith]
  rcases hwritten : numbers.mapM writeInt with g | ts
  · obtain rfl := mapM_writeInt_failsOnly numbers g hwritten
    exact ⟨by rintro ⟨⟩, by rintro ⟨_, ⟨⟩⟩⟩
  · exact ⟨fun _ => ⟨ts, rfl⟩, fun _ => hf⟩

/-- **The fault of margins that leave nothing** is a crop fault exactly if it can be written. -/
theorem isCropBounds_iff_of_checkBounds (h : m.checkBounds descriptor = .error f) :
    f.isCropBounds = true ↔ ¬ m.Unwritable descriptor := by
  have hunwritable : ∀ {width height : Int},
      descriptor.bind Descriptor.frame? = some (width, height) →
        (¬ m.Unwritable descriptor ↔
          ∀ k ∈ m.complaint width height, k.natAbs < 10 ^ digitLimit) := by
    intro width height hframe
    simp only [Margins.Unwritable, hframe, Option.some.injEq, Prod.mk.injEq, not_exists, not_and,
      Nat.not_le]
    exact ⟨fun hall => hall width height ⟨rfl, rfl⟩, fun hall _ _ ⟨hw, hh⟩ => hw ▸ hh ▸ hall⟩
  rw [Margins.checkBounds] at h
  rcases hframe : descriptor.bind Descriptor.frame? with _ | ⟨width, height⟩
  · rw [hframe] at h
    cases h
  · simp only [hframe] at h
    rw [hunwritable hframe, Margins.complaint]
    split at h
    · next hwide =>
      rw [if_pos hwide, ← Except.error.inj h]
      exact isCropBounds_faultWith rfl
    · next hwide =>
      rw [if_neg hwide]
      split at h
      · next htall =>
        rw [if_pos htall, ← Except.error.inj h]
        exact isCropBounds_faultWith rfl
      · cases h

/-! ## Which crops there are -/

/-- **Two merges that come to the same:** to the same commands, or to crop faults with the same
message. -/
def ComeToSame (x y : Except Fault (List Command)) : Prop :=
  (∃ merged, x = .ok merged ∧ y = .ok merged) ∨
    ∃ f g, x = .error f ∧ y = .error g ∧ f.isCropBounds = true ∧ g.isCropBounds = true ∧
      f.message = g.message

theorem comeToSame_self_iff {x : Except Fault (List Command)} :
    ComeToSame x x ↔ ∀ f, x = .error f → f.isCropBounds = true := by
  constructor
  · rintro (⟨merged, hx, -⟩ | ⟨f, -, hx, -, hf, -⟩) g hg
    · cases hx.symm.trans hg
    · rwa [← Except.error.inj (hx.symm.trans hg)]
  · intro h
    rcases x with f | merged
    · exact .inr ⟨f, f, rfl, rfl, h f rfl, h f rfl, rfl⟩
    · exact .inl ⟨merged, rfl, rfl⟩

/-- **Merging fails with a crop fault,** if it fails, exactly if the fault can be written. -/
theorem comeToSame_mergeCrops_iff (hmany : 2 ≤ (crops commands).length) :
    ComeToSame (mergeCrops commands descriptor) (mergeCrops commands descriptor) ↔
      ¬ (Margins.total (crops commands)).Unwritable descriptor := by
  rw [comeToSame_self_iff]
  rcases mergeCrops_cases commands descriptor with
    ⟨hfew, -⟩ | ⟨-, ⟨f, hbounds, hfailed⟩ | ⟨detect, hbounds, hmerged⟩⟩
  · omega
  · rw [hfailed, ← isCropBounds_iff_of_checkBounds hbounds]
    exact ⟨fun h => h f rfl, fun h g hg => Except.error.inj hg ▸ h⟩
  · -- the margins leave something of the frame, so there is no fault to be written
    rw [hmerged]
    refine ⟨fun _ => ?_, fun _ _ hg => by cases hg⟩
    rintro ⟨width, height, hframe, k, hk, -⟩
    have hnot : ¬ (Margins.total (crops commands)).Exceeds width height := by
      intro hexceeds
      obtain ⟨f, hf⟩ := exists_checkBounds_error.2 ⟨width, height, hframe, hexceeds⟩
      cases hf.symm.trans hbounds
    rw [Margins.Exceeds, not_or] at hnot
    rw [Margins.complaint, if_neg hnot.1, if_neg hnot.2] at hk
    cases hk

/-- **Merging depends only on which crops there are.** Two lists of commands with the same crops
among the same other commands, and two crops at least, are merged to the same commands, or fail
with the same fault. That is a crop fault exactly if the numbers in it can be written. What comes
out is one merged crop, which takes from each edge the sizes of the crops that touch it and
detects borders if one of them takes no pixels, and behind it the other commands in their order;
fewer than two crops are left as they are, and merging again changes nothing. -/
theorem merging_by_crops (commands : List Command) (descriptor : Option Descriptor) :
    (∀ others : List Command, SameCrops commands others → 2 ≤ (crops commands).length →
      mergeCrops commands descriptor = mergeCrops others descriptor ∧
      (ComeToSame (mergeCrops commands descriptor) (mergeCrops others descriptor) ↔
        ¬ (Margins.total (crops commands)).Unwritable descriptor)) ∧
    ((crops commands).length < 2 → mergeCrops commands descriptor = .ok commands) ∧
    ∀ merged : List Command, mergeCrops commands descriptor = .ok merged →
      (2 ≤ (crops commands).length →
        ∃ m detect, merged = .mergedCrop m detect :: otherCommands commands ∧
          (∀ e, m.along e = (sizesAlong e (crops commands)).sum) ∧
          (detect = true ↔ ∃ c ∈ crops commands, c.1 = 0)) ∧
      mergeCrops merged descriptor = .ok merged := by
  refine ⟨fun others hsame hmany => ?_, fun hfew => if_pos hfew, fun merged h =>
    ⟨fun hmany => exists_of_mergeCrops hmany h, mergeCrops_merged h⟩⟩
  have heq := mergeCrops_eq hsame hmany descriptor
  exact ⟨heq, by rw [← heq]; exact comeToSame_mergeCrops_iff hmany⟩

/-- Crops of all sorts among other commands. -/
def scatteredCrops : List Command :=
  [.crop 10 (.known .each), .deduplicate 5, .crop 0 (.known .top), .crop 3 (.known .width),
    .compress (.known .audio)]

/-- The same crops in another order and at other places. -/
def shuffledCrops : List Command :=
  [.deduplicate 5, .crop 3 (.known .width), .compress (.known .audio), .crop 0 (.known .top),
    .crop 10 (.known .each)]

theorem merging_by_crops_scattered :
    mergeCrops scatteredCrops (some smallFile) = mergeCrops shuffledCrops (some smallFile) ∧
      ∃ m, mergeCrops scatteredCrops (some smallFile) =
          .ok [.mergedCrop m true, .deduplicate 5, .compress (.known .audio)] ∧
        m.along .left = 13 ∧ m.along .top = 10 := by
  have hsame : SameCrops scatteredCrops shuffledCrops := ⟨by decide, by decide⟩
  have hmany : 2 ≤ (crops scatteredCrops).length := by decide
  have hmerged : mergeCrops scatteredCrops (some smallFile) =
      .ok [.mergedCrop ⟨13, 13, 10, 10⟩ true, .deduplicate 5, .compress (.known .audio)] := by
    decide +kernel
  obtain ⟨horders, -, hresult⟩ := merging_by_crops scatteredCrops (some smallFile)
  refine ⟨(horders _ hsame hmany).1, ?_⟩
  obtain ⟨hparts, -⟩ := hresult _ hmerged
  obtain ⟨m, detect, heq, hsizes, hdetect⟩ := hparts hmany
  have hborders : detect = true := hdetect.2 ⟨(0, .known .top), by decide, rfl⟩
  rw [hborders] at heq
  refine ⟨m, hmerged.trans (congrArg Except.ok heq), ?_, ?_⟩
  · rw [hsizes]
    decide
  · rw [hsizes]
    decide

/-- Two crops of one size and side. -/
def twiceLeft (size : Int) : List Command := [.crop size (.known .left), .crop size (.known .left)]

theorem unwritable_twiceLeft {size : Int} (hwide : 100 ≤ size + size)
    (hlong : 10 ^ digitLimit ≤ (size + size).natAbs) :
    (Margins.total (crops (twiceLeft size))).Unwritable (some smallFile) := by
  have htotal : Margins.total (crops (twiceLeft size)) = ⟨size + size, 0, 0, 0⟩ := by
    refine Margins.ext_along fun e => ?_
    rw [along_total]
    cases e <;> simp [sizesAlong, crops, twiceLeft, Command.crop?, Word.touches, Side.edges,
      Margins.along]
  rw [htotal]
  refine ⟨100, 50, rfl, size + size, ?_, hlong⟩
  rw [Margins.complaint, if_pos (by simpa [Margins.horizontal] using hwide)]
  exact List.mem_cons_self

/-- **Not every fault of merging is a crop fault.** Two crops have the largest size that can be
read; their sum has one digit more than can be written, so no message says that they leave nothing
of the width. -/
theorem merging_without_message :
    SameCrops (twiceLeft (10 ^ digitLimit - 1)) (twiceLeft (10 ^ digitLimit - 1)) ∧
      2 ≤ (crops (twiceLeft (10 ^ digitLimit - 1))).length ∧
      mergeCrops (twiceLeft (10 ^ digitLimit - 1)) (some smallFile) = .error .numeralTooLong ∧
      ¬ ComeToSame (mergeCrops (twiceLeft (10 ^ digitLimit - 1)) (some smallFile))
        (mergeCrops (twiceLeft (10 ^ digitLimit - 1)) (some smallFile)) := by
  have hlarge : (100 : Int) ≤ 10 ^ digitLimit :=
    calc (100 : Int) = 10 ^ 2 := by norm_num
      _ ≤ 10 ^ digitLimit := pow_le_pow_right₀ (by norm_num) (by decide)
  have hcast : (10 : Int) ^ digitLimit = ((10 ^ digitLimit : Nat) : Int) := (Nat.cast_pow 10 _).symm
  -- nothing else is used of the limit, so that no power is computed
  generalize (10 : Int) ^ digitLimit = limit at *
  have hunwritable := @unwritable_twiceLeft (limit - 1) (by omega) (by omega)
  have hmany : 2 ≤ (crops (twiceLeft (limit - 1))).length := Nat.le_refl 2
  have hnot : ¬ ComeToSame (mergeCrops (twiceLeft (limit - 1)) (some smallFile))
      (mergeCrops (twiceLeft (limit - 1)) (some smallFile)) := by
    rw [comeToSame_mergeCrops_iff hmany, not_not]
    exact hunwritable
  refine ⟨⟨rfl, .refl _⟩, hmany, ?_, hnot⟩
  rcases mergeCrops_cases (twiceLeft (limit - 1)) (some smallFile) with
    ⟨hfew, -⟩ | ⟨-, ⟨f, hbounds, hfailed⟩ | ⟨detect, -, hmerged⟩⟩
  · omega
  · rcases checkBounds_failsOnly _ _ f hbounds with hcrop | rfl
    · exact absurd hunwritable ((isCropBounds_iff_of_checkBounds hbounds).1 hcrop)
    · exact hfailed
  · exact absurd (.inl ⟨_, hmerged, hmerged⟩) hnot

end ClipScript
