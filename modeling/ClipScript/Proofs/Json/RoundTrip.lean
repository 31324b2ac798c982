/-
# What is written is read back

A value without numbers that is written in some layout is read as the same value, whatever
follows it (`readValue_write`). Texts come back character by character: what is escaped is
unescaped, and a character beyond the first plane by the two halves that it is written
as (`readChars_escapeChar`). Blanks of the layout are skipped, which is all that has to be
known of it (`Style.Blank`).

Two things are asked of a value (`Legible`): the names of an object are different, since a
name counts once, and it is not nested too deeply. Numbers are left out, because a number
ends where the next character says so.
-/
import ClipScript.Json.Reader
import ClipScript.Json.Writer
import Mathlib.Data.List.Nodup

set_option autoImplicit false

namespace ClipScript.Json

/-- **Reading leaves** some text behind a value. -/
def Leaves {α : Type} {cs : List Char} (x : Except Stop (α × Rest cs)) (a : α)
    (left : List Char) : Prop := ∃ h, x = .ok (a, ⟨left, h⟩)

theorem Leaves.bind {α β : Type} {cs ds : List Char} {x : Except Stop (α × Rest cs)}
    {k : α × Rest cs → Except Stop (β × Rest ds)} {a : α} {b : β} {left after : List Char}
    (hx : Leaves x a left) (hk : ∀ h, Leaves (k (a, ⟨left, h⟩)) b after) :
    Leaves (x >>= k) b after := by
  obtain ⟨h, rfl⟩ := hx
  exact hk h

theorem Leaves.of_eq {α : Type} {cs : List Char} {a : α} {r : Rest cs} {left : List Char}
    (h : r.1 = left) : Leaves (.ok (a, r)) a left := by
  subst h
  exact ⟨r.2, rfl⟩

/-! ## Escapes -/

/-- **How a character is written:** by a backslash and a letter, as it is, or by one or two code
units. -/
inductive Escapes (c : Char) : List Char → Prop where
  | letter (letter : Char) (other : letter ≠ 'u') (stands : escaped? letter = some c) :
    Escapes c ['\\', letter]
  | plain (quote : c ≠ '"') (slash : c ≠ '\\') (control : 32 ≤ c.toNat) : Escapes c [c]
  | unit (plane : c.toNat < 0x10000) : Escapes c (unitEscape c.toNat)
  | pair {high low : Nat} (first : isHighSurrogate high = true)
      (second : isLowSurrogate low = true) (join : joinSurrogates high low = c.toNat) :
    Escapes c (unitEscape high ++ unitEscape low)

theorem toNat_lt (c : Char) : c.toNat < 0x110000 := by
  have hvalid : c.toNat < 0xD800 ∨ 0xDFFF < c.toNat ∧ c.toNat < 0x110000 := c.valid
  omega

theorem escapes (c : Char) : Escapes c (escapeChar c) := by
  unfold escapeChar
  dsimp only
  split_ifs with hquote hslash hline hreturn htab hform hback hplain hplane
  · exact .letter '"' (by decide) (by rw [hquote]; rfl)
  · exact .letter '\\' (by decide) (by rw [hslash]; rfl)
  · exact .letter 'n' (by decide) (by rw [hline]; rfl)
  · exact .letter 'r' (by decide) (by rw [hreturn]; rfl)
  · exact .letter 't' (by decide) (by rw [htab]; rfl)
  · exact .letter 'f' (by decide) (by rw [hform]; rfl)
  · exact .letter 'b' (by decide) (by rw [hback]; rfl)
  · exact .plain hquote hslash hplain.1
  · exact .unit hplane
  · -- beyond the first plane, the difference to it is split into ten bits and ten bits
    have hlt := toNat_lt c
    have hhigh : isHighSurrogate (0xD800 + (c.toNat - 0x10000) / 0x400) = true := by
      rw [isHighSurrogate, Bool.and_eq_true, decide_eq_true_eq, decide_eq_true_eq]
      omega
    have hlow : isLowSurrogate (0xDC00 + (c.toNat - 0x10000) % 0x400) = true := by
      rw [isLowSurrogate, Bool.and_eq_true, decide_eq_true_eq, decide_eq_true_eq]
      omega
    refine .pair hhigh hlow ?_
    unfold joinSurrogates
    omega

/-! ## Reading escapes -/

section Texts

variable {opening left rest chars : List Char} {c char : Char}

theorem hexValue?_hexDigit : ∀ n < 16, hexValue? (Text.hexDigit n) = some n := by decide

/-- Four hexadecimal digits stand for the number that they are written for. -/
theorem hexQuad?_hexDigits {n : Nat} (h : n < 0x10000) :
    hexQuad? (Text.hexDigit (n / 16 / 16 / 16 % 16)) (Text.hexDigit (n / 16 / 16 % 16))
      (Text.hexDigit (n / 16 % 16)) (Text.hexDigit (n % 16)) = some n := by
  have hdigit : ∀ k, hexValue? (Text.hexDigit (k % 16)) = some (k % 16) := fun k =>
    hexValue?_hexDigit _ (Nat.mod_lt _ (by omega))
  simp only [hexQuad?, hdigit, Option.pure_def, Option.bind_eq_bind, Option.bind_some,
    Option.some.injEq]
  omega

theorem readUnit_hexDigits {n : Nat} (h : n < 0x10000) (hleft : left ≠ []) :
    Leaves (readUnit ('u' :: (Text.hexDigits 4 n ++ left))) n left := by
  obtain ⟨e, r, rfl⟩ := List.exists_cons_of_ne_nil hleft
  show Leaves (readUnit ('u' :: _ :: _ :: _ :: _ :: e :: r)) n (e :: r)
  rw [readUnit, hexQuad?_hexDigits h]
  exact ⟨_, rfl⟩

theorem readEscape_letter (hunit : c ≠ 'u') (h : escaped? c = some char) :
    Leaves (readEscape c left) char left := by
  rw [readEscape, if_neg hunit, h]
  exact ⟨_, rfl⟩

/-- A number that is no first half stands for its character. -/
theorem readEscape_unit {n : Nat} (h : n < 0x10000) (hhigh : isHighSurrogate n = false)
    (hleft : left ≠ []) :
    Leaves (readEscape 'u' (Text.hexDigits 4 n ++ left)) (Text.charOfPoint n) left := by
  rw [readEscape, if_pos rfl]
  refine (readUnit_hexDigits h hleft).bind fun _ => ?_
  dsimp only
  split
  · rw [if_neg (by simp [hhigh])]
    exact ⟨_, rfl⟩
  · exact ⟨_, rfl⟩

/-- Two halves stand for one character. -/
theorem readEscape_pair {high low : Nat} (hhigh : isHighSurrogate high = true)
    (hlow : isLowSurrogate low = true) (hleft : left ≠ []) :
    Leaves (readEscape 'u' (Text.hexDigits 4 high ++ (unitEscape low ++ left)))
      (Text.charOfPoint (joinSurrogates high low)) left := by
  simp only [isHighSurrogate, isLowSurrogate, Bool.and_eq_true, decide_eq_true_eq] at hhigh hlow
  rw [readEscape, if_pos rfl]
  refine (readUnit_hexDigits (by omega) (by simp [unitEscape])).bind fun _ => ?_
  dsimp only
  split
  · next r hr =>
    obtain rfl : Text.hexDigits 4 low ++ left = r := by simpa [unitEscape] using hr
    rw [if_pos (by simpa [isHighSurrogate] using hhigh)]
    refine (readUnit_hexDigits (by omega) hleft).bind fun _ => ?_
    dsimp only
    rw [if_pos (by simpa [isLowSurrogate] using hlow)]
    exact ⟨_, rfl⟩
  · next hother => exact absurd rfl (hother _)

/-! ## Texts -/

theorem readChars_quote (opening left : List Char) :
    Leaves (readChars opening ('"' :: left)) [] left := by
  unfold readChars
  exact ⟨_, rfl⟩

theorem readChars_plain (hquote : c ≠ '"') (hslash : c ≠ '\\') (hcontrol : 32 ≤ c.toNat)
    (h : Leaves (readChars opening rest) chars left) :
    Leaves (readChars opening (c :: rest)) (c :: chars) left := by
  unfold readChars
  rw [if_neg hquote, if_neg hslash, if_neg (by omega)]
  exact h.bind fun _ => ⟨_, rfl⟩

theorem readChars_escape {cs : List Char} (hescape : Leaves (readEscape c cs) char rest)
    (h : Leaves (readChars opening rest) chars left) :
    Leaves (readChars opening ('\\' :: c :: cs)) (char :: chars) left := by
  unfold readChars
  rw [if_neg (by decide), if_pos rfl]
  exact hescape.bind fun _ => h.bind fun _ => ⟨_, rfl⟩

theorem charOfPoint_toNat (c : Char) : Text.charOfPoint c.toNat = c := by
  have hvalid : c.toNat.isValidChar := c.valid
  rw [Text.charOfPoint, if_pos hvalid]
  exact Char.ofNat_toNat c

/-- No character is half of a pair. -/
theorem isHighSurrogate_toNat (c : Char) : isHighSurrogate c.toNat = false := by
  have hvalid : c.toNat < 0xD800 ∨ 0xDFFF < c.toNat ∧ c.toNat < 0x110000 := c.valid
  rw [isHighSurrogate, Bool.and_eq_false_iff, decide_eq_false_iff_not, decide_eq_false_iff_not]
  omega

/-- **A character comes back** as it was before it was escaped. -/
theorem readChars_escapeChar (c : Char) (hrest : rest ≠ [])
    (h : Leaves (readChars opening rest) chars left) :
    Leaves (readChars opening (escapeChar c ++ rest)) (c :: chars) left := by
  generalize hwritten : escapeChar c = written
  have hescapes : Escapes c written := hwritten ▸ escapes c
  cases hescapes with
  | letter letter hunit hletter => exact readChars_escape (readEscape_letter hunit hletter) h
  | plain hquote hslash hcontrol => exact readChars_plain hquote hslash hcontrol h
  | unit hplane =>
    have hescape := readEscape_unit hplane (isHighSurrogate_toNat c) hrest
    rw [charOfPoint_toNat] at hescape
    exact readChars_escape hescape h
  | pair hhigh hlow hjoin =>
    have hescape := readEscape_pair hhigh hlow hrest
    rw [hjoin, charOfPoint_toNat] at hescape
    rw [List.append_assoc]
    exact readChars_escape hescape h

/-- **A text comes back** up to its closing quote. -/
theorem readChars_flatMap (opening cs left : List Char) :
    Leaves (readChars opening (cs.flatMap escapeChar ++ '"' :: left)) cs left := by
  induction cs with
  | nil => exact readChars_quote opening left
  | cons c cs ih =>
    rw [List.flatMap_cons, List.append_assoc]
    exact readChars_escapeChar c (by simp) ih

end Texts

/-! ## Layouts -/

/-- **A layout with nothing but blanks** around its commas and colons. -/
structure Style.Blank (style : Style) : Prop where
  opening : ∀ depth cs, skip (style.opening depth ++ cs) = skip cs
  between : ∀ depth cs, ∃ r, skip (style.between depth ++ cs) = ',' :: r ∧ skip r = skip cs
  closing : ∀ depth cs, skip (style.closing depth ++ cs) = skip cs
  colon : ∀ cs, ∃ r, skip (style.colon ++ cs) = ':' :: r ∧ skip r = skip cs

theorem skip_append {blanks : List Char} (h : ∀ c ∈ blanks, isSpace c = true) (cs : List Char) :
    skip (blanks ++ cs) = skip cs := List.dropWhile_append_of_pos h

theorem skip_cons {c : Char} (h : isSpace c = false) (cs : List Char) : skip (c :: cs) = c :: cs :=
  List.dropWhile_cons_of_neg (by simp [h])

theorem skip_newLine (depth : Nat) (cs : List Char) : skip (newLine depth ++ cs) = skip cs := by
  refine skip_append (fun c hc => ?_) cs
  rw [newLine, List.mem_cons, List.mem_replicate] at hc
  rcases hc with rfl | ⟨-, rfl⟩ <;> decide

theorem Style.blank_line : Style.line.Blank :=
  ⟨fun _ _ => rfl, fun _ cs => ⟨cs, skip_cons (by decide) cs, rfl⟩, fun _ _ => rfl,
    fun cs => ⟨cs, skip_cons (by decide) cs, rfl⟩⟩

theorem Style.blank_indented : Style.indented.Blank :=
  ⟨fun depth => skip_newLine (depth + 1),
    fun depth cs => ⟨newLine (depth + 1) ++ cs, skip_cons (by decide) _, skip_newLine _ cs⟩,
    skip_newLine, fun cs => ⟨' ' :: cs, skip_cons (by decide) _, rfl⟩⟩

/-! ## Values -/

/-- **A value without numbers** whose names are different, of some depth at most. -/
inductive Legible : Nat → Json → Prop where
  | null {depth : Nat} : Legible depth .null
  | bool {depth : Nat} (b : Bool) : Legible depth (.bool b)
  | text {depth : Nat} (s : String) : Legible depth (.text s)
  | array {depth : Nat} {items : List Json} (each : ∀ item ∈ items, Legible depth item) :
    Legible (depth + 1) (.array items)
  | object {depth : Nat} {members : List (String × Json)}
      (names : (members.map Prod.fst).Nodup) (each : ∀ m ∈ members, Legible depth m.2) :
    Legible (depth + 1) (.object members)

/-- The characters that such a value starts with. -/
def starts : List Char := ['n', 't', 'f', '"', '[', '\x7b']

theorem write_starts {depth : Nat} {j : Json} (h : Legible depth j) (style : Style) (d : Nat) :
    ∃ c cs, write style d j = c :: cs ∧ c ∈ starts := by
  cases h with
  | null => exact ⟨_, _, by rw [write]; rfl, by decide⟩
  | bool b => cases b <;> exact ⟨_, _, by rw [write]; rfl, by decide⟩
  | text s => exact ⟨_, _, by rw [write]; rfl, by decide⟩
  | @array _ items _ =>
    rcases items with _ | _
    · exact ⟨_, _, by rw [write], by decide⟩
    · exact ⟨_, _, by rw [write]; rfl, by decide⟩
  | @object _ members _ _ =>
    rcases members with _ | _
    · exact ⟨_, _, by rw [write], by decide⟩
    · exact ⟨_, _, by rw [write]; rfl, by decide⟩

theorem not_isSpace_of_starts {c : Char} (h : c ∈ starts) : isSpace c = false := by
  simp only [starts, List.mem_cons, List.not_mem_nil, or_false] at h
  rcases h with rfl | rfl | rfl | rfl | rfl | rfl <;> rfl

/-- Nothing of a written value is skipped. -/
theorem skip_write {depth : Nat} {j : Json} (h : Legible depth j) (style : Style) (d : Nat)
    (left : List Char) : skip (write style d j ++ left) = write style d j ++ left := by
  obtain ⟨c, cs, hwrite, hc⟩ := write_starts h style d
  rw [hwrite]
  exact skip_cons (not_isSpace_of_starts hc) _

theorem skip_writeText (s : String) (left : List Char) :
    skip (writeText s ++ left) = writeText s ++ left := skip_cons (by decide) _

/-! ## Members -/

theorem insert_of_not_mem {name : String} {value : Json} {members : List (String × Json)}
    (h : name ∉ members.map Prod.fst) :
    insert name value members = members ++ [(name, value)] := by
  induction members with
  | nil => rfl
  | cons m ms ih =>
    rw [List.map_cons, List.mem_cons, not_or] at h
    rw [insert, if_neg (Ne.symm h.1), ih h.2, List.cons_append]

/-- Members with different names are kept as they are. -/
theorem foldl_insert {before members : List (String × Json)}
    (h : ((before ++ members).map Prod.fst).Nodup) :
    members.foldl (fun ms m => insert m.1 m.2 ms) before = before ++ members := by
  induction members generalizing before with
  | nil => exact (List.append_nil before).symm
  | cons m ms ih =>
    have hnew : m.1 ∉ before.map Prod.fst := by
      rw [List.map_append, List.map_cons] at h
      exact fun hm => List.disjoint_of_nodup_append h hm List.mem_cons_self
    rw [List.foldl_cons, insert_of_not_mem hnew, ih (by simpa using h), List.append_assoc]
    rfl

theorem ofMembers_of_nodup {members : List (String × Json)}
    (h : (members.map Prod.fst).Nodup) : ofMembers members = .object members := by
  rw [ofMembers, foldl_insert (by simpa using h), List.nil_append]

/-! ## Reading values -/

section Values

variable {style : Style} {depth : Nat} (d : Nat) (left : List Char)

/-- A written value is read whatever follows. -/
def ReadsBack (style : Style) (depth : Nat) (j : Json) : Prop :=
  ∀ d left, Leaves (readValue depth (write style d j ++ left)) j left

theorem readValue_text (s : String) :
    Leaves (readValue depth (writeText s ++ left)) (.text s) left := by
  rw [writeText, List.append_assoc, List.cons_append]
  unfold readValue
  refine (readChars_flatMap _ _ left).bind fun _ => ?_
  dsimp only
  rw [String.ofList_toList]
  exact ⟨_, rfl⟩

/-- A word that is a value is read. -/
theorem readValue_word {c : Char} {word : List Char} {j : Json}
    (hstart : c ≠ '"' ∧ c ≠ '[' ∧ c ≠ '\x7b')
    (h : readSimple (c :: (word ++ left)) = .ok (j, word.length + 1)) :
    Leaves (readValue depth (c :: (word ++ left))) j left := by
  rw [readValue, h]
  · exact Leaves.of_eq List.drop_left
  · exact hstart.1
  · exact hstart.2.1
  · exact hstart.2.2

/-- An item is read, and the others behind it if there is a comma. -/
theorem readItems_item {item : Json} {items : List Json} {after : List Char}
    (hback : ReadsBack style depth item)
    (hafter : items = [] ∧ skip after = ']' :: left ∨
      ∃ r, skip after = ',' :: r ∧ Leaves (readItems depth (skip r)) items left) :
    Leaves (readItems depth (write style d item ++ after)) (item :: items) left := by
  unfold readItems
  refine (hback d after).bind fun _ => ?_
  dsimp only
  rcases hafter with ⟨rfl, hclose⟩ | ⟨r, hcomma, hitems⟩
  · split
    · next r hr =>
      obtain rfl : left = r := (List.cons.inj (hclose.symm.trans hr)).2
      exact ⟨_, rfl⟩
    · next r hr => cases (List.cons.inj (hclose.symm.trans hr)).1
    · next hother _ => exact absurd hclose (hother _)
  · split
    · next r' hr => cases (List.cons.inj (hcomma.symm.trans hr)).1
    · next r' hr =>
      obtain rfl : r = r' := (List.cons.inj (hcomma.symm.trans hr)).2
      exact hitems.bind fun _ => ⟨_, rfl⟩
    · next _ hother => exact absurd hcomma (hother _)

/-- **The items of an array** are read, if each of them is. -/
theorem readItems_write (hstyle : style.Blank) {item : Json} {items : List Json}
    (hlegible : ∀ i ∈ item :: items, Legible depth i)
    (hback : ∀ i ∈ item :: items, ReadsBack style depth i) :
    Leaves (readItems depth (write style (d + 1) item ++ (writeItems style d items ++
      (style.closing d ++ ']' :: left)))) (item :: items) left := by
  induction items generalizing item with
  | nil =>
    refine readItems_item _ _ (hback item List.mem_cons_self) (.inl ⟨rfl, ?_⟩)
    rw [writeItems, List.nil_append, hstyle.closing]
    exact skip_cons (by decide) left
  | cons next items ih =>
    -- behind the comma the other items stand as they were written
    obtain ⟨r, hcomma, hr⟩ := hstyle.between d (write style (d + 1) next ++
      (writeItems style d items ++ (style.closing d ++ ']' :: left)))
    rw [skip_write (hlegible next (by simp))] at hr
    refine readItems_item _ _ (hback item List.mem_cons_self) (.inr ⟨r, ?_, ?_⟩)
    · rw [writeItems, List.append_assoc, List.append_assoc]
      exact hcomma
    · rw [hr]
      exact ih (fun i hi => hlegible i (List.mem_cons_of_mem _ hi))
        fun i hi => hback i (List.mem_cons_of_mem _ hi)

/-- A member is read, and the others behind it if there is a comma. -/
theorem readMembers_member (hstyle : style.Blank) {m : String × Json}
    {members : List (String × Json)} {after : List Char} (hlegible : Legible depth m.2)
    (hback : ReadsBack style depth m.2)
    (hafter : members = [] ∧ skip after = '\x7d' :: left ∨
      ∃ r, skip after = ',' :: r ∧ Leaves (readMembers depth (skip r)) members left) :
    Leaves (readMembers depth (writeText m.1 ++ (style.colon ++ (write style d m.2 ++ after))))
      (m :: members) left := by
  rw [writeText, List.append_assoc, List.cons_append]
  unfold readMembers
  refine (readChars_flatMap _ _ _).bind fun _ => ?_
  dsimp only
  obtain ⟨r, hcolon, hr⟩ := hstyle.colon (write style d m.2 ++ after)
  rw [skip_write hlegible] at hr
  have hvalue := hback d after
  rw [← hr] at hvalue
  split
  · next r' hr' =>
    obtain rfl : r = r' := (List.cons.inj (hcolon.symm.trans hr')).2
    refine hvalue.bind fun _ => ?_
    dsimp only
    rw [String.ofList_toList]
    rcases hafter with ⟨rfl, hclose⟩ | ⟨s, hcomma, hmembers⟩
    · split
      · next s hs =>
        obtain rfl : left = s := (List.cons.inj (hclose.symm.trans hs)).2
        exact ⟨_, rfl⟩
      · next s hs => cases (List.cons.inj (hclose.symm.trans hs)).1
      · next hother _ => exact absurd hclose (hother _)
    · split
      · next s' hs => cases (List.cons.inj (hcomma.symm.trans hs)).1
      · next s' hs =>
        obtain rfl : s = s' := (List.cons.inj (hcomma.symm.trans hs)).2
        exact hmembers.bind fun _ => ⟨_, rfl⟩
      · next _ hother => exact absurd hcomma (hother _)
  · next hother => exact absurd hcolon (hother _)

/-- **The members of an object** are read, if each of their values is. -/
theorem readMembers_write (hstyle : style.Blank) {m : String × Json}
    {members : List (String × Json)} (hlegible : ∀ n ∈ m :: members, Legible depth n.2)
    (hback : ∀ n ∈ m :: members, ReadsBack style depth n.2) :
    Leaves (readMembers depth (writeText m.1 ++ (style.colon ++ (write style (d + 1) m.2 ++
      (writeMembers style d members ++ (style.closing d ++ '\x7d' :: left)))))) (m :: members)
      left := by
  induction members generalizing m with
  | nil =>
    refine readMembers_member _ _ hstyle (hlegible m List.mem_cons_self)
      (hback m List.mem_cons_self) (.inl ⟨rfl, ?_⟩)
    rw [writeMembers, List.nil_append, hstyle.closing]
    exact skip_cons (by decide) left
  | cons next members ih =>
    obtain ⟨r, hcomma, hr⟩ := hstyle.between d (writeText next.1 ++ (style.colon ++
      (write style (d + 1) next.2 ++ (writeMembers style d members ++
        (style.closing d ++ '\x7d' :: left)))))
    refine readMembers_member _ _ hstyle (hlegible m List.mem_cons_self)
      (hback m List.mem_cons_self) (.inr ⟨r, ?_, ?_⟩)
    · simp only [writeMembers, List.append_assoc]
      exact hcomma
    · rw [hr, skip_writeText]
      exact ih (fun n hn => hlegible n (List.mem_cons_of_mem _ hn))
        fun n hn => hback n (List.mem_cons_of_mem _ hn)

theorem readValue_empty_array :
    Leaves (readValue (depth + 1) ('[' :: ']' :: left)) (.array []) left := by
  have hskip : skip (']' :: left) = ']' :: left := skip_cons (by decide) left
  rw [readValue]
  split
  · next r hr =>
    obtain rfl : left = r := (List.cons.inj (hskip.symm.trans hr)).2
    exact ⟨_, rfl⟩
  · next hother => exact absurd hskip (hother _)

theorem readValue_array {items : List Json} {text : List Char}
    (hopen : ∀ r, skip text ≠ ']' :: r)
    (h : Leaves (readItems depth (skip text)) items left) :
    Leaves (readValue (depth + 1) ('[' :: text)) (.array items) left := by
  rw [readValue]
  split
  · next r hr => exact absurd hr (hopen r)
  · exact h.bind fun _ => ⟨_, rfl⟩

theorem readValue_empty_object :
    Leaves (readValue (depth + 1) ('\x7b' :: '\x7d' :: left)) (.object []) left := by
  have hskip : skip ('\x7d' :: left) = '\x7d' :: left := skip_cons (by decide) left
  rw [readValue]
  split
  · next r hr =>
    obtain rfl : left = r := (List.cons.inj (hskip.symm.trans hr)).2
    exact ⟨_, rfl⟩
  · next hother => exact absurd hskip (hother _)

theorem readValue_object {members : List (String × Json)} {text : List Char}
    (hopen : ∀ r, skip text ≠ '\x7d' :: r)
    (h : Leaves (readMembers depth (skip text)) members left) :
    Leaves (readValue (depth + 1) ('\x7b' :: text)) (.ofMembers members) left := by
  rw [readValue]
  split
  · next r hr => exact absurd hr (hopen r)
  · exact h.bind fun _ => ⟨_, rfl⟩

/-- **An array** is read back, if its items are. -/
theorem readsBack_array (hstyle : style.Blank) {items : List Json}
    (hlegible : ∀ i ∈ items, Legible depth i) (hback : ∀ i ∈ items, ReadsBack style depth i) :
    ReadsBack style (depth + 1) (.array items) := by
  intro d left
  rcases items with _ | ⟨item, items⟩
  · rw [write]
    exact readValue_empty_array left
  · have hitem := hlegible item List.mem_cons_self
    have hwritten : write style d (.array (item :: items)) ++ left =
        '[' :: (style.opening d ++ (write style (d + 1) item ++
          (writeItems style d items ++ (style.closing d ++ ']' :: left)))) := by
      simp [write]
    have hskip := (hstyle.opening d _).trans (skip_write hitem style (d + 1)
      (writeItems style d items ++ (style.closing d ++ ']' :: left)))
    obtain ⟨c, cs, hstart, hc⟩ := write_starts hitem style (d + 1)
    rw [hwritten]
    refine readValue_array left (fun r hr => ?_) ?_
    · -- no value starts with a closing bracket
      rw [hskip, hstart] at hr
      obtain rfl : c = ']' := (List.cons.inj hr).1
      exact absurd hc (by decide)
    · rw [hskip]
      exact readItems_write d left hstyle hlegible hback

/-- **An object** is read back, if its values are and its names are different. -/
theorem readsBack_object (hstyle : style.Blank) {members : List (String × Json)}
    (hnames : (members.map Prod.fst).Nodup) (hlegible : ∀ m ∈ members, Legible depth m.2)
    (hback : ∀ m ∈ members, ReadsBack style depth m.2) :
    ReadsBack style (depth + 1) (.object members) := by
  intro d left
  rcases members with _ | ⟨m, members⟩
  · rw [write]
    exact readValue_empty_object left
  · have hwritten : write style d (.object (m :: members)) ++ left =
        '\x7b' :: (style.opening d ++ (writeText m.1 ++ (style.colon ++
          (write style (d + 1) m.2 ++ (writeMembers style d members ++
            (style.closing d ++ '\x7d' :: left)))))) := by
      simp [write]
    have hskip := (hstyle.opening d _).trans (skip_writeText m.1 (style.colon ++
      (write style (d + 1) m.2 ++ (writeMembers style d members ++
        (style.closing d ++ '\x7d' :: left)))))
    rw [hwritten, ← ofMembers_of_nodup hnames]
    refine readValue_object left (fun r hr => ?_) ?_
    · rw [hskip, writeText] at hr
      cases (List.cons.inj hr).1
    · rw [hskip]
      exact readMembers_write d left hstyle hlegible hback

/-- **What is written is read back,** whatever follows it. -/
theorem readValue_write (hstyle : style.Blank) {j : Json} (h : Legible depth j) :
    ReadsBack style depth j := by
  induction h with
  | null =>
    intro d left
    rw [write]
    exact readValue_word left (by decide) rfl
  | bool b =>
    intro d left
    cases b <;> rw [write] <;> exact readValue_word left (by decide) rfl
  | text s =>
    intro d left
    rw [write]
    exact readValue_text left s
  | array hlegible ih => exact readsBack_array hstyle hlegible ih
  | object hnames hlegible ih => exact readsBack_object hstyle hnames hlegible ih

end Values

/-! ## Texts as a whole -/

/-- **A written text is JSON** for the value that was written, with blanks behind it or not. -/
theorem read_write {style : Style} (hstyle : style.Blank) {j : Json} {depth : Nat}
    (h : Legible depth j) {left : List Char} (hleft : skip left = []) :
    read (String.ofList (write style 0 j ++ left)) depth = .ok j := by
  obtain ⟨c, cs, hstart, hc⟩ := write_starts h style 0
  have hvalue := readValue_write hstyle h 0 left
  rw [← skip_write h style 0 left] at hvalue
  obtain ⟨_, hvalue⟩ := hvalue
  have hall : readAll depth (write style 0 j ++ left) = .ok j := by
    unfold readAll
    split
    · next r hr =>
      rw [hstart] at hr
      obtain rfl := (List.cons.inj hr).1
      exact absurd hc (by decide)
    · rw [hvalue]
      simp [bind, Except.bind, hleft]
  rw [read, String.toList_ofList, hall]

/-- What is written on one line is JSON for the value. -/
theorem read_line {j : Json} {depth : Nat} (h : Legible depth j) : read j.line depth = .ok j := by
  have hread := read_write Style.blank_line h (show skip [] = [] from rfl)
  rwa [List.append_nil] at hread

/-- What is written with one item a line is JSON for the value. -/
theorem read_indented {j : Json} {depth : Nat} (h : Legible depth j) :
    read (j.indented ++ "\n") depth = .ok j := by
  have hread := read_write Style.blank_indented h (show skip ['\n'] = [] from rfl)
  rwa [String.ofList_append] at hread

end ClipScript.Json
