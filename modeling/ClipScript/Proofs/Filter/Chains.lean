/-
# Filters of a chain

A text is cut at the separators that a scan comes to outside quotes (`cutFrom`). Behind a
closed text the scan is outside, so a separator there parts what stands before it from what
comes behind it (`cutFrom_append`), and a text without separators among its marks is not cut
(`cutFrom_of_forall`). What is cut, and where, differs: the encoder cuts a chain into filters
at the commas (`filtersOf`), so the filters of closed texts that are joined by commas are
those of each (`filtersOf_intercalate`), however many commas they have inside quotes or of
their own.

A text is a *single* filter if it is closed and none of its marks is a comma, and it is
*solid* if its marks are colons and equals signs only, so that it is a filter without labels.
Such texts one after another are of the same sort, so a filter that is put together from
names, numbers and quoted texts is seen to be solid part by part, and keeps the name that it
begins with (`Titled`, and `Named` for those that are only single).
-/
import ClipScript.Proofs.Filter.Scanning

set_option autoImplicit false

namespace ClipScript.Filter

/-! ## Cutting at separators -/

/-- **The texts between the separators** that a scan comes to outside. -/
def cutFrom (isSeparator : Char → Bool) : Mode → List Char → List (List Char)
  | _, [] => [[]]
  | m, c :: cs =>
    if m = .outside ∧ isSeparator c = true then [] :: cutFrom isSeparator .outside cs
    else (cutFrom isSeparator (m.step c) cs).modifyHead (c :: ·)

/-- The texts between the separators of a text. -/
def cut (isSeparator : Char → Bool) (t : String) : List (List Char) :=
  cutFrom isSeparator .outside t.toList

/-- Separators that are marks. -/
def Separates (isSeparator : Char → Bool) : Prop := ∀ c, isSeparator c = true → isMark c = true

section Cutting

variable {isSeparator : Char → Bool} {m : Mode} {cs : List Char} {d : Char}

theorem Mode.step_of_isMark (h : isMark d = true) : Mode.outside.step d = .outside := by
  apply Mode.step_outside
  · rintro rfl
    exact absurd h (by decide)
  · rintro rfl
    exact absurd h (by decide)

theorem cutFrom_ne_nil (isSeparator : Char → Bool) (m : Mode) (cs : List Char) :
    cutFrom isSeparator m cs ≠ [] := by
  induction cs generalizing m with
  | nil => exact List.cons_ne_nil _ _
  | cons c cs ih =>
    rw [cutFrom]
    split
    · exact List.cons_ne_nil _ _
    · rw [ne_eq, List.modifyHead_eq_nil_iff]
      exact ih _

/-- **At a separator outside** a text falls into what stands before it and what comes behind. -/
theorem cutFrom_append (hsep : Separates isSeparator) (hd : isSeparator d = true)
    (h : m.after cs = .outside) (ds : List Char) :
    cutFrom isSeparator m (cs ++ d :: ds) =
      cutFrom isSeparator m cs ++ cutFrom isSeparator .outside ds := by
  induction cs generalizing m with
  | nil =>
    obtain rfl : m = .outside := h
    simp only [List.nil_append, cutFrom, hd, and_self, if_true, List.singleton_append]
  | cons c cs ih =>
    have hcs : (m.step c).after cs = .outside := h
    rw [List.cons_append, cutFrom, cutFrom]
    by_cases hcut : m = .outside ∧ isSeparator c = true
    · -- a separator outside leaves the scan outside
      have hafter : Mode.outside.after cs = .outside := by
        obtain ⟨rfl, hc⟩ := hcut
        rwa [Mode.step_of_isMark (hsep c hc)] at hcs
      rw [if_pos hcut, if_pos hcut, ih hafter, List.cons_append]
    · rw [if_neg hcut, if_neg hcut, ih hcs]
      obtain ⟨f, fs, hf⟩ := List.exists_cons_of_ne_nil (cutFrom_ne_nil isSeparator (m.step c) cs)
      rw [hf]
      rfl

/-- **Without separators among its marks** a text is not cut. -/
theorem cutFrom_of_forall (hsep : Separates isSeparator)
    (h : ∀ c ∈ marksFrom m cs, isSeparator c = false) : cutFrom isSeparator m cs = [cs] := by
  induction cs generalizing m with
  | nil => rfl
  | cons c cs ih =>
    rw [marksFrom] at h
    rw [cutFrom]
    by_cases hmark : m = .outside ∧ isMark c = true
    · rw [if_pos hmark, List.forall_mem_cons] at h
      rw [if_neg (by rw [h.1]; simp), ih h.2]
      rfl
    · rw [if_neg hmark] at h
      have hcut : ¬ (m = .outside ∧ isSeparator c = true) := fun hcut =>
        hmark ⟨hcut.1, hsep c hcut.2⟩
      rw [if_neg hcut, ih h]
      rfl

/-- **The pieces of closed texts** that are joined by commas are those of each text, if commas are
separators. -/
theorem cut_intercalate (hsep : Separates isSeparator) (hcomma : isSeparator ',' = true)
    {ts : List String} (hne : ts ≠ []) (h : ∀ t ∈ ts, Closed t) :
    cut isSeparator (String.intercalate "," ts) = ts.flatMap (cut isSeparator) := by
  induction ts with
  | nil => exact absurd rfl hne
  | cons t ts ih =>
    by_cases hts : ts = []
    · subst hts
      rw [String.intercalate_singleton, List.flatMap_singleton]
    · have hclosed : Mode.outside.after t.toList = .outside := h t List.mem_cons_self
      have htext : (String.intercalate "," (t :: ts)).toList =
          t.toList ++ ',' :: (String.intercalate "," ts).toList := by
        rw [String.intercalate_cons_of_ne_nil hts, String.toList_append, String.toList_append,
          List.append_assoc]
        rfl
      rw [cut, htext, cutFrom_append hsep hcomma hclosed, List.flatMap_cons,
        ← ih hts fun u hu => h u (List.mem_cons_of_mem _ hu)]
      rfl

end Cutting

/-! ## Cutting a chain -/

/-- The texts between the commas that a scan comes to outside. -/
def piecesFrom : Mode → List Char → List (List Char)
  | _, [] => [[]]
  | m, c :: cs =>
    if m = .outside ∧ c = ',' then [] :: piecesFrom .outside cs
    else (piecesFrom (m.step c) cs).modifyHead (c :: ·)

/-- **The filters of a chain.** -/
def filtersOf (chain : String) : List (List Char) := piecesFrom .outside chain.toList

theorem separates_comma : Separates (· == ',') := by
  intro c hc
  obtain rfl := eq_of_beq hc
  rfl

/-- A chain is cut at its commas. -/
theorem piecesFrom_eq (m : Mode) (cs : List Char) : piecesFrom m cs = cutFrom (· == ',') m cs := by
  induction cs generalizing m with
  | nil => rfl
  | cons c cs ih => simp only [piecesFrom, cutFrom, ih, beq_iff_eq]

theorem filtersOf_eq (chain : String) : filtersOf chain = cut (· == ',') chain := piecesFrom_eq _ _

/-- **The filters of a chain of closed texts** are those of each text. -/
theorem filtersOf_intercalate {ts : List String} (hne : ts ≠ []) (h : ∀ t ∈ ts, Closed t) :
    filtersOf (String.intercalate "," ts) = ts.flatMap filtersOf := by
  rw [filtersOf_eq, cut_intercalate separates_comma rfl hne h]
  congr 1
  exact funext fun t => (filtersOf_eq t).symm

/-! ## Single filters -/

/-- **A single filter,** or a part of one. -/
structure Single (t : String) : Prop where
  closed : Closed t
  comma : ',' ∉ marks t

instance (t : String) : Decidable (Single t) :=
  decidable_of_iff (Closed t ∧ ',' ∉ marks t) ⟨fun h => ⟨h.1, h.2⟩, fun h => ⟨h.1, h.2⟩⟩

namespace Single

variable {s t : String}

theorem append (hs : Single s) (ht : Single t) : Single (s ++ t) := by
  refine ⟨hs.closed.append ht.closed, ?_⟩
  rw [hs.closed.marks_append, List.mem_append, not_or]
  exact ⟨hs.comma, ht.comma⟩

theorem of_mute (h : Mute t.toList) : Single t := by
  refine ⟨h.closed, ?_⟩
  rw [marks, h.marks]
  exact List.not_mem_nil

theorem filtersOf_eq (h : Single t) : filtersOf t = [t.toList] := by
  rw [Filter.filtersOf_eq, cut, cutFrom_of_forall separates_comma]
  intro c hc
  simpa using ne_of_mem_of_not_mem hc h.comma

end Single

/-! ## Solid texts -/

/-- **A solid text:** one that is closed, and in which nothing ends a filter or stands for a
label. -/
structure Solid (t : String) : Prop where
  closed : Closed t
  marks : ∀ c ∈ marks t, c = ':' ∨ c = '='

instance (t : String) : Decidable (Solid t) :=
  decidable_of_iff (Closed t ∧ (marks t).all (fun c => decide (c = ':' ∨ c = '=')) = true)
    ⟨fun h => ⟨h.1, by simpa using h.2⟩, fun h => ⟨h.1, by simpa using h.2⟩⟩

namespace Solid

variable {s t : String}

theorem append (hs : Solid s) (ht : Solid t) : Solid (s ++ t) := by
  refine ⟨hs.closed.append ht.closed, ?_⟩
  rw [hs.closed.marks_append, List.forall_mem_append]
  exact ⟨hs.marks, ht.marks⟩

theorem of_mute (h : Mute t.toList) : Solid t := by
  refine ⟨h.closed, ?_⟩
  rw [Filter.marks, h.marks]
  exact fun c hc => (List.not_mem_nil hc).elim

/-- **Separators of other kinds** do not cut a solid text. -/
theorem cut_eq {isSeparator : Char → Bool} (hsep : Separates isSeparator)
    (hcolon : isSeparator ':' = false) (hequals : isSeparator '=' = false) (h : Solid t) :
    cut isSeparator t = [t.toList] := by
  apply cutFrom_of_forall hsep
  intro c hc
  rcases h.marks c hc with rfl | rfl
  · exact hcolon
  · exact hequals

theorem single (h : Solid t) : Single t := by
  refine ⟨h.closed, fun hmem => ?_⟩
  rcases h.marks _ hmem with heq | heq
  · exact absurd heq (by decide)
  · exact absurd heq (by decide)

end Solid

/-- What a scan calls a mark is one, and is a character of the text. -/
theorem mem_of_mem_marksFrom {m : Mode} {cs : List Char} {c : Char} (h : c ∈ marksFrom m cs) :
    isMark c = true ∧ c ∈ cs := by
  induction cs generalizing m with
  | nil => cases h
  | cons d cs ih =>
    rw [marksFrom] at h
    split at h
    · next hmark =>
      rcases List.mem_cons.1 h with rfl | h
      · exact ⟨hmark.2, List.mem_cons_self⟩
      · exact ⟨(ih h).1, List.mem_cons_of_mem _ (ih h).2⟩
    · exact ⟨(ih h).1, List.mem_cons_of_mem _ (ih h).2⟩

/-- **A numeral has no marks.** -/
theorem mute_of_numeral {t : String} (h : Number.Numeral t.toList) : Mute t.toList := by
  refine ⟨closed_of_numeral h, List.eq_nil_iff_forall_not_mem.2 fun c hc => ?_⟩
  obtain ⟨hmark, hmem⟩ := mem_of_mem_marksFrom hc
  have hchar := h c hmem
  simp only [isMark, Bool.or_eq_true, decide_eq_true_eq] at hmark
  -- no mark is a character of numerals
  rcases hmark with ((((rfl | rfl) | rfl) | rfl) | rfl) | rfl
  all_goals cases hchar

theorem solid_of_numeral {t : String} (h : Number.Numeral t.toList) : Solid t :=
  .of_mute (mute_of_numeral h)

theorem single_of_numeral {t : String} (h : Number.Numeral t.toList) : Single t :=
  (solid_of_numeral h).single

/-! ## Names -/

/-- The name of a filter ends at the first equals sign. -/
theorem takeWhile_name {name : List Char} (h : '=' ∉ name) (arguments : List Char) :
    (name ++ '=' :: arguments).takeWhile (· != '=') = name := by
  rw [List.takeWhile_append_of_pos fun c hc => by simpa using ne_of_mem_of_not_mem hc h,
    List.takeWhile_cons_of_neg (by decide), List.append_nil]

/-- **How the name of a filter begins,** if that is not how any of some other names does. -/
structure Apart (others : List String) (name : String) : Prop where
  equals : '=' ∉ name.toList
  others : ∀ other ∈ others, ¬ name.toList <+: other.toList

instance (others : List String) (name : String) : Decidable (Apart others name) :=
  decidable_of_iff ('=' ∉ name.toList ∧ ∀ other ∈ others, ¬ name.toList <+: other.toList)
    ⟨fun h => ⟨h.1, h.2⟩, fun h => ⟨h.1, h.2⟩⟩

/-- A filter that begins so has none of the other names. -/
theorem Apart.takeWhile_ne {others : List String} {name other : String} (h : Apart others name)
    (hother : other ∈ others) {f : List Char} (hopens : name.toList <+: f) :
    f.takeWhile (· != '=') ≠ other.toList := by
  obtain ⟨rest, rfl⟩ := hopens
  intro heq
  refine h.others other hother (heq ▸ ?_)
  rw [List.takeWhile_append_of_pos fun c hc => by simpa using ne_of_mem_of_not_mem hc h.equals]
  exact List.prefix_append _ _

/-- **A single filter whose text begins with a name,** or with a part of one. -/
structure Named (name t : String) : Prop where
  single : Single t
  opens : name.toList <+: t.toList

theorem Named.append {name s t : String} (hs : Named name s) (ht : Single t) :
    Named name (s ++ t) := by
  refine ⟨hs.single.append ht, hs.opens.trans ?_⟩
  rw [String.toList_append]
  exact List.prefix_append _ _

/-- **A solid filter of a name:** its text begins with the name and an equals sign. -/
structure Titled (name t : String) : Prop where
  solid : Solid t
  opens : (name ++ "=").toList <+: t.toList

namespace Titled

variable {name s t : String}

theorem append (hs : Titled name s) (ht : Solid t) : Titled name (s ++ t) := by
  refine ⟨hs.solid.append ht, hs.opens.trans ?_⟩
  rw [String.toList_append]
  exact List.prefix_append _ _

theorem named (h : Titled name t) : Named name t := by
  refine ⟨h.solid.single, List.IsPrefix.trans ?_ h.opens⟩
  rw [String.toList_append]
  exact List.prefix_append _ _

end Titled

end ClipScript.Filter
