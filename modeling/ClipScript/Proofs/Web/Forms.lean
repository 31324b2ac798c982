/-
# Uploaded forms are read back

A form with one file is written with a boundary, the name of a field and the name of a file.
Reading it gives that field and that file, whatever the content (`formFiles_writeForm`).

Three things could come between, and each is ruled out where it would. The boundary stands
without quotes in the content type, so it has to be a token. The two names stand between
double quotes, so neither has a quote, a backslash or a line end in it, nor `%22`, which is
read as a quote. And the content has no mark of the boundary in it, since a part ends there.

The reader goes over the text from the left, and so do the lemmas: up to the first boundary,
through the header lines, and through the content up to the last boundary.
-/
import ClipScript.Web.Form

set_option autoImplicit false

namespace ClipScript.Web

/-! ## Texts -/

theorem dropWhile_of_head {p : Char → Bool} {cs : List Char} (h : ∀ c ∈ cs.head?, p c = false) :
    cs.dropWhile p = cs := by
  cases cs with
  | nil => rfl
  | cons c cs => rw [List.dropWhile_cons, h c rfl, if_neg Bool.false_ne_true]

/-- A text with other characters at its ends is not stripped. -/
theorem strip_of_ends {p : Char → Bool} {cs : List Char} (hhead : ∀ c ∈ cs.head?, p c = false)
    (hlast : ∀ c ∈ cs.getLast?, p c = false) : Text.strip p cs = cs := by
  rw [Text.strip, dropWhile_of_head hhead, dropWhile_of_head (by rwa [List.head?_reverse]),
    List.reverse_reverse]

theorem strip_space (cs : List Char) :
    Text.strip Text.isBlank (' ' :: cs) = Text.strip Text.isBlank cs := rfl

theorem takeWhile_before {c : Char} {cs : List Char} (h : c ∉ cs) (rest : List Char) :
    (cs ++ c :: rest).takeWhile (· != c) = cs := by
  rw [List.takeWhile_append_of_pos fun d hd => bne_iff_ne.2 (ne_of_mem_of_not_mem hd h)]
  simp

theorem drop_behind (cs rest : List Char) (c : Char) :
    (cs ++ c :: rest).drop (cs.length + 1) = rest := by
  rw [List.drop_append]
  simp

/-- A text in which something does not occur has nothing to replace. -/
theorem replaced_of_not_infix {old new cs : List Char} (h : ¬ old <:+: cs) :
    replaced old new cs = cs := by
  induction cs with
  | nil => rw [replaced]
  | cons c cs ih =>
    have hprefix : old.isPrefixOf (c :: cs) = false :=
      Bool.eq_false_iff.2 fun hp => h (List.isPrefixOf_iff_prefix.1 hp).isInfix
    rw [replaced, hprefix, Bool.and_false, if_neg Bool.false_ne_true,
      ih fun hin => h (List.infix_cons hin)]

/-- A text within one line. -/
def OneLine (cs : List Char) : Prop := '\r' ∉ cs ∧ '\n' ∉ cs

instance (cs : List Char) : Decidable (OneLine cs) := inferInstanceAs (Decidable (_ ∧ _))

theorem oneLine_cons {c : Char} {cs : List Char} :
    OneLine (c :: cs) ↔ c ≠ '\r' ∧ c ≠ '\n' ∧ OneLine cs := by
  simp only [OneLine, List.mem_cons, not_or, eq_comm]
  exact ⟨fun h => ⟨h.1.1, h.2.1, h.1.2, h.2.2⟩, fun h => ⟨⟨h.1, h.2.2.1⟩, h.2.1, h.2.2.2⟩⟩

theorem oneLine_append {cs ds : List Char} : OneLine (cs ++ ds) ↔ OneLine cs ∧ OneLine ds := by
  simp only [OneLine, List.mem_append, not_or]
  exact and_and_and_comm

theorem linesOf_of_oneLine {cs : List Char} (h : OneLine cs) (line : List Char) :
    linesOf line cs = [line.reverse ++ cs] := by
  induction cs generalizing line with
  | nil => simp [linesOf]
  | cons c cs ih =>
    obtain ⟨hr, hn, hrest⟩ := oneLine_cons.1 h
    rw [linesOf, ih hrest]
    · simp
    all_goals simp_all

theorem unfolded_of_oneLine {cs : List Char} (h : OneLine cs) : unfolded cs = cs := by
  induction cs with
  | nil => rfl
  | cons c cs ih =>
    obtain ⟨hr, hn, hrest⟩ := oneLine_cons.1 h
    rw [unfolded, ih hrest]
    all_goals simp_all

/-! ## Names between quotes -/

/-- **A text that can stand between double quotes** in a header line. -/
structure Quotable (cs : List Char) : Prop where
  line : OneLine cs
  quote : '"' ∉ cs
  backslash : '\\' ∉ cs
  percent : ¬ ['%', '2', '2'] <:+: cs

theorem quotedPart_of_quotable {cs : List Char} (h : Quotable cs) (after : List Char) :
    quotedPart (cs ++ '"' :: after) = some (cs, after) := by
  obtain ⟨-, hquote, hbackslash, -⟩ := h
  induction cs with
  | nil => rfl
  | cons c cs ih =>
    have hc : c ≠ '"' := fun heq => hquote (heq ▸ List.mem_cons_self)
    have hc' : c ≠ '\\' := fun heq => hbackslash (heq ▸ List.mem_cons_self)
    rw [List.cons_append, quotedPart, ih (fun hm => hquote (List.mem_cons_of_mem _ hm))
      fun hm => hbackslash (List.mem_cons_of_mem _ hm)]
    · rfl
    all_goals simp_all

theorem unescaped_of_quotable {cs : List Char} (h : Quotable cs) : unescaped cs = cs := by
  have hno (c : Char) : ¬ ['\\', c] <:+: cs := fun hin =>
    h.backslash (hin.subset List.mem_cons_self)
  rw [unescaped, replaced_of_not_infix (hno _), replaced_of_not_infix (hno _),
    replaced_of_not_infix h.percent]

/-- The name of a parameter, in small letters. -/
def IsName (name : List Char) : Prop :=
  name ≠ [] ∧ name.all isTokenChar = true ∧ name.map Char.toLower = name

instance (name : List Char) : Decidable (IsName name) := inferInstanceAs (Decidable (_ ∧ _))

theorem takeWhile_token {name : List Char} (h : ∀ c ∈ name, isTokenChar c = true) (rest : List Char)
    (hrest : ∀ c ∈ rest.head?, isTokenChar c = false) :
    (name ++ rest).takeWhile isTokenChar = name := by
  rw [List.takeWhile_append_of_pos h]
  cases rest with
  | nil => simp
  | cons c rest => simp [hrest c rfl]

/-- A parameter with its text between quotes. -/
theorem firstParam_quoted {name text : List Char} (hname : IsName name) (htext : Quotable text)
    (after : List Char) :
    firstParam (name ++ '=' :: '"' :: (text ++ '"' :: after)) =
      (some (String.ofList name, String.ofList text), after) := by
  obtain ⟨hnonempty, htoken, hlower⟩ := hname
  rw [firstParam, takeWhile_token (List.all_eq_true.1 htoken) _ (by simp; decide), List.drop_left]
  simp [hnonempty, hlower, quotedPart_of_quotable htext, unescaped_of_quotable htext,
    show isTokenChar '"' = false by decide]

/-- A parameter whose text is a token, up to the end. -/
theorem firstParam_token {name token : List Char} (hname : IsName name) (hnonempty : token ≠ [])
    (htoken : ∀ c ∈ token, isTokenChar c = true) :
    firstParam (name ++ '=' :: token) =
      (some (String.ofList name, String.ofList token), token) := by
  have htake : token.takeWhile isTokenChar = token := by
    simpa using takeWhile_token htoken [] (by simp)
  rw [firstParam, takeWhile_token (List.all_eq_true.1 hname.2.1) _ (by simp; decide),
    List.drop_left]
  simp [hname.1, hname.2.2, htake, hnonempty]

/-! ## Header values -/

/-- A header value with something behind a semicolon that is not stripped. -/
theorem ofText_of_params {value rest : List Char} (hvalue : ';' ∉ value)
    (hstrip : Text.strip Text.isBlank value = value) (hnonempty : value ≠ [])
    (hrest : Text.strip Text.isBlank rest = rest) (hsome : rest ≠ []) :
    Header.ofText (String.ofList (value ++ ';' :: ' ' :: rest)) =
      ⟨String.ofList value, paramsFrom (value.length + rest.length + 2) rest⟩ := by
  rw [Header.ofText, String.toList_ofList, String.length_ofList]
  simp only [takeWhile_before hvalue, drop_behind, hstrip, strip_space, hrest]
  simp [hnonempty, hsome, Nat.add_assoc]

/-- The characters of tokens are those of ASCII without blanks, but not all of them. -/
theorem range_of_isTokenChar {c : Char} (h : isTokenChar c = true) :
    33 ≤ c.toNat ∧ c.toNat ≤ 126 := by
  have hsigns : "_!#$%&'*+-.^\x60|~".toList.all fun d => 33 ≤ d.toNat ∧ d.toNat ≤ 126 := by
    decide
  rcases Bool.or_eq_true_iff.1 h with h | h
  · have hranges : (decide ('A'.val ≤ c.val ∧ c.val ≤ 'Z'.val) ||
        decide ('a'.val ≤ c.val) && decide (c.val ≤ 'z'.val) ||
          decide ('0'.val ≤ c.val) && decide (c.val ≤ '9'.val)) = true := h
    have hval : c.val.toNat = c.toNat := rfl
    simp [UInt32.le_iff_toNat_le] at hranges
    omega
  · simpa using List.all_eq_true.1 hsigns c (List.contains_iff_mem.1 h)

theorem isBlank_of_isTokenChar {c : Char} (h : isTokenChar c = true) : Text.isBlank c = false := by
  obtain ⟨hlow, hhigh⟩ := range_of_isTokenChar h
  simp [Text.isBlank]
  omega

/-- **The content type of a form.** -/
theorem contentType_of_token {boundary : List Char} (hnonempty : boundary ≠ [])
    (htoken : ∀ c ∈ boundary, isTokenChar c = true) :
    Header.ofText (String.ofList ("multipart/form-data".toList ++
        ';' :: ' ' :: ("boundary".toList ++ '=' :: boundary))) =
      ⟨"multipart/form-data", [("boundary", String.ofList boundary)]⟩ := by
  have hend : boundary.dropWhile (· != ';') = [] := by
    have hother : ∀ c ∈ boundary, (c != ';') = true := fun c hc => bne_iff_ne.2 fun heq => by
      subst heq
      cases htoken _ hc
    simpa using @List.dropWhile_append_of_pos _ _ boundary [] hother
  have hstrip : Text.strip Text.isBlank ("boundary".toList ++ '=' :: boundary) =
      "boundary".toList ++ '=' :: boundary := by
    refine strip_of_ends (fun c hc => ?_) fun c hc => isBlank_of_isTokenChar (htoken c ?_)
    · cases hc
      decide
    · rw [List.getLast?_append, List.getLast?_cons_of_ne_nil hnonempty,
        List.getLast?_eq_some_getLast hnonempty] at hc
      cases hc
      exact List.getLast_mem hnonempty
  rw [ofText_of_params (by decide) (by decide) (by decide) hstrip (by simp), paramsFrom,
    firstParam_token (by decide) hnonempty htoken]
  simp [hend]

/-- The names of a field and of a file, as a part has them. -/
def namesText (field filename : List Char) : List Char :=
  "name".toList ++ '=' :: '"' :: (field ++ '"' ::
    (';' :: ' ' :: ("filename".toList ++ '=' :: '"' :: (filename ++ ['"']))))

theorem getLast?_namesText (field filename : List Char) :
    (namesText field filename).getLast? = some '"' := by
  simp [namesText, List.getLast?_append, List.getLast?_cons]

/-- What is written before the names does not change how they end. -/
theorem getLast?_before {cs rest : List Char} {d : Char} (h : rest.getLast? = some d) (c : Char) :
    (cs ++ c :: ' ' :: rest).getLast? = some d := by
  simp [List.getLast?_append, List.getLast?_cons, h]

/-- A text that ends in a quote is not stripped if it begins with no blank. -/
theorem strip_of_quote {cs : List Char} (hhead : ∃ c, cs.head? = some c ∧ Text.isBlank c = false)
    (hlast : cs.getLast? = some '"') : Text.strip Text.isBlank cs = cs := by
  obtain ⟨c, hc, hblank⟩ := hhead
  refine strip_of_ends (fun d hd => ?_) fun d hd => ?_
  · cases hc.symm.trans hd
    exact hblank
  · cases hlast.symm.trans hd
    decide

theorem strip_namesText (field filename : List Char) :
    Text.strip Text.isBlank (namesText field filename) = namesText field filename :=
  strip_of_quote ⟨'n', rfl, by decide⟩ (getLast?_namesText field filename)

/-- **The disposition of a part** has both names. -/
theorem disposition_of_quotable {field filename : List Char} (hfield : Quotable field)
    (hfilename : Quotable filename) :
    Header.ofText (String.ofList ("form-data".toList ++ ';' :: ' ' :: namesText field filename)) =
      ⟨"form-data", [("name", String.ofList field), ("filename", String.ofList filename)]⟩ := by
  have hsome : namesText field filename ≠ [] := by simp [namesText]
  have hfirst := firstParam_quoted (show IsName "name".toList by decide) hfield
    (';' :: ' ' :: ("filename".toList ++ '=' :: '"' :: (filename ++ ['"'])))
  have hsecond := firstParam_quoted (show IsName "filename".toList by decide) hfilename []
  have hnext : (' ' :: ("filename".toList ++ '=' :: '"' :: (filename ++ ['"']))).dropWhile
      Text.isBlank = "filename".toList ++ '=' :: '"' :: (filename ++ ['"']) := rfl
  rw [ofText_of_params (by decide) (by decide) (by decide) (strip_namesText field filename) hsome,
    paramsFrom, namesText, hfirst]
  simp only [List.dropWhile_cons, bne_self_eq_false, Bool.false_eq_true, if_false, hnext]
  rw [paramsFrom, hsecond]
  rfl

/-! ## Header lines -/

/-- The header line of a part. -/
def headerLine (field filename : List Char) : List Char :=
  "Content-Disposition".toList ++ ':' :: ' ' ::
    ("form-data".toList ++ ';' :: ' ' :: namesText field filename)

theorem oneLine_headerLine {field filename : List Char} (hfield : Quotable field)
    (hfilename : Quotable filename) : OneLine (headerLine field filename) := by
  have hparam {name text rest : List Char} (hname : OneLine name) (htext : OneLine text)
      (hrest : OneLine rest) : OneLine (name ++ '=' :: '"' :: (text ++ '"' :: rest)) := by
    simp [oneLine_append, oneLine_cons, hname, htext, hrest]
  have hbehind {cs rest : List Char} {c : Char} (hcs : OneLine cs) (hc : c = ':' ∨ c = ';')
      (hrest : OneLine rest) : OneLine (cs ++ c :: ' ' :: rest) := by
    rcases hc with rfl | rfl <;> simp [oneLine_append, oneLine_cons, hcs, hrest]
  have hnames : OneLine (namesText field filename) :=
    hparam (by decide) hfield.line (@hbehind [] _ ';' (by decide) (.inr rfl)
      (hparam (by decide) hfilename.line (by decide)))
  exact hbehind (by decide) (.inl rfl) (hbehind (by decide) (.inr rfl) hnames)

/-- The value of a header line with nothing to strip at its ends. -/
theorem headerValue?_of_line {name : String} {key rest : List Char}
    (hline : OneLine (key ++ ':' :: ' ' :: rest)) (hkey : ':' ∉ key)
    (hstrip : Text.strip Text.isBlank key = key)
    (hname : String.ofList (key.map Char.toLower) = name)
    (hrest : Text.strip Text.isBlank rest = rest)
    (hwhole : Text.strip Text.isBlank (key ++ ':' :: ' ' :: rest) = key ++ ':' :: ' ' :: rest) :
    headerValue? name (key ++ ':' :: ' ' :: rest) = some (String.ofList rest) := by
  rw [headerValue?, unfolded_of_oneLine hline, linesOf_of_oneLine hline, List.findSome?_cons]
  simp only [List.reverse_nil, List.nil_append, hwhole, takeWhile_before hkey, drop_behind,
    hstrip, strip_space, hrest, hname, if_true]

/-- **The file of a part** is the one that its header line names. -/
theorem partFile_headerLine {field filename : List Char} (hfield : Quotable field)
    (hfilename : Quotable filename) :
    partFile (headerLine field filename) =
      some [⟨some (String.ofList field), String.ofList filename⟩] := by
  have hnames := getLast?_namesText field filename
  have hvalue : headerValue? "content-disposition" (headerLine field filename) =
      some (String.ofList ("form-data".toList ++ ';' :: ' ' :: namesText field filename)) :=
    headerValue?_of_line (oneLine_headerLine hfield hfilename) (by decide) (by decide)
      (by decide +kernel)
      (strip_of_quote ⟨'f', rfl, by decide⟩ (getLast?_before hnames ';'))
      (strip_of_quote ⟨'C', rfl, by decide⟩ (getLast?_before (getLast?_before hnames ';') ':'))
  rw [partFile, hvalue, Option.map_some, disposition_of_quotable hfield hfilename]
  rfl

/-! ## Boundaries -/

variable {boundary : List Char}

/-- What every boundary line begins with. -/
def mark (boundary : List Char) : List Char := '-' :: '-' :: boundary

theorem isPrefixOf_mark (boundary rest : List Char) :
    (mark boundary).isPrefixOf (mark boundary ++ rest) = true :=
  List.isPrefixOf_iff_prefix.2 (List.prefix_append _ _)

/-- A mark and a line end are a boundary line with a part behind it. -/
theorem boundaryLine?_inner (boundary rest : List Char) :
    boundaryLine? boundary (mark boundary ++ '\r' :: '\n' :: rest) = some (false, rest) := by
  rw [boundaryLine?, ← mark, if_pos (isPrefixOf_mark _ _), List.drop_left]
  rfl

/-- A mark and two more dashes are the last boundary line. -/
theorem boundaryLine?_last (boundary : List Char) :
    boundaryLine? boundary (mark boundary ++ ['-', '-', '\r', '\n']) = some (true, []) := by
  rw [boundaryLine?, ← mark, if_pos (isPrefixOf_mark _ _), List.drop_left]
  rfl

/-- Without a mark in front of a line end there is no boundary line. -/
theorem boundaryLine?_of_not_infix (hboundary : '\r' ∉ boundary) {cs : List Char}
    (h : ¬ mark boundary <:+: cs) (rest : List Char) :
    boundaryLine? boundary (cs ++ '\r' :: rest) = none := by
  rw [boundaryLine?, ← mark, if_neg]
  intro hprefix
  obtain ⟨after, heq⟩ := List.isPrefixOf_iff_prefix.1 hprefix
  rcases List.append_eq_append_iff.1 heq with ⟨middle, hcs, -⟩ | ⟨middle, hmark, hafter⟩
  · exact h ⟨[], middle, hcs.symm⟩
  · cases middle with
    | nil => exact h ⟨[], [], by simpa using hmark⟩
    | cons c middle =>
      obtain ⟨rfl, -⟩ := List.cons.inj hafter
      have hmem : '\r' ∈ mark boundary := hmark ▸ by simp
      simp [mark, hboundary] at hmem

/-- A line end in a text leaves a later part of it, and what comes behind. -/
theorem afterLineEnd?_cases (c : Char) (cs rest : List Char) :
    afterLineEnd? (c :: (cs ++ '\r' :: rest)) = none ∨
      ∃ later, later <:+ cs ∧ afterLineEnd? (c :: (cs ++ '\r' :: rest)) =
        some (later ++ '\r' :: rest) := by
  by_cases hr : c = '\r'
  · subst hr
    rcases cs with _ | ⟨d, cs⟩
    · exact .inr ⟨[], List.suffix_refl _, rfl⟩
    · by_cases hn : d = '\n'
      · subst hn
        exact .inr ⟨cs, List.suffix_cons _ _, rfl⟩
      · exact .inr ⟨d :: cs, List.suffix_refl _, by simp [afterLineEnd?, hn]⟩
  · by_cases hn : c = '\n'
    · subst hn
      exact .inr ⟨cs, List.suffix_refl _, rfl⟩
    · exact .inl (by simp [afterLineEnd?, hr, hn])

/-- **A content without a mark** ends at the last boundary of the form. -/
theorem nextBoundary?_of_not_infix (hboundary : '\r' ∉ boundary) {content : List Char}
    (h : ¬ mark boundary <:+: content) :
    nextBoundary? boundary (content ++ '\r' :: '\n' :: (mark boundary ++ ['-', '-', '\r', '\n'])) =
      some (true, []) := by
  induction content with
  | nil =>
    rw [List.nil_append, nextBoundary?, afterLineEnd?, Option.bind_some, boundaryLine?_last]
  | cons c content ih =>
    have hnone : (afterLineEnd? (c :: (content ++
        '\r' :: '\n' :: (mark boundary ++ ['-', '-', '\r', '\n'])))).bind
          (boundaryLine? boundary) = none := by
      rcases afterLineEnd?_cases c content ('\n' :: (mark boundary ++ ['-', '-', '\r', '\n']))
        with hend | ⟨later, hlater, hend⟩
      · rw [hend, Option.bind_none]
      · rw [hend, Option.bind_some, boundaryLine?_of_not_infix hboundary fun hin =>
          h (hin.trans (hlater.isInfix.trans (List.suffix_cons _ _).isInfix))]
    rw [List.cons_append, nextBoundary?, hnone]
    exact ih fun hin => h (List.infix_cons hin)

/-- The header line of a part ends at the empty line. -/
theorem splitPart?_of_oneLine {line : List Char} (h : OneLine line) (content : List Char) :
    splitPart? (line ++ '\r' :: '\n' :: '\r' :: '\n' :: content) =
      some (line, '\r' :: '\n' :: content) := by
  induction line with
  | nil => rfl
  | cons c line ih =>
    obtain ⟨hr, hn, hrest⟩ := oneLine_cons.1 h
    rw [List.cons_append, splitPart?, ih hrest]
    · rfl
    all_goals simp_all

/-- **The first boundary** stands behind a line end. -/
theorem firstBoundary?_of_mark (boundary rest : List Char) :
    firstBoundary? boundary ('\r' :: '\n' :: (mark boundary ++ '\r' :: '\n' :: rest)) =
      some (false, rest) := by
  have hr (cs : List Char) : boundaryLine? boundary ('\r' :: cs) = none := rfl
  have hn (cs : List Char) : boundaryLine? boundary ('\n' :: cs) = none := rfl
  rw [firstBoundary?, hr]
  simp only
  rw [firstBoundary?, hn]
  simp only
  rw [mark, List.cons_append, firstBoundary?, ← List.cons_append, ← mark, boundaryLine?_inner]

/-! ## Forms -/

/-- The text of a form, in the parts that its reader takes. -/
theorem toList_writeForm (boundary field filename content : String) :
    (writeForm boundary field filename content).toList =
      '\r' :: '\n' :: (mark boundary.toList ++ '\r' :: '\n' ::
        (headerLine field.toList filename.toList ++ '\r' :: '\n' :: '\r' :: '\n' ::
          (content.toList ++ '\r' :: '\n' ::
            (mark boundary.toList ++ ['-', '-', '\r', '\n'])))) := by
  have hfront : "\r\n--".toList = ['\r', '\n', '-', '-'] := rfl
  have hname : "\r\nContent-Disposition: form-data; name=\"".toList =
      '\r' :: '\n' :: ("Content-Disposition".toList ++ ':' :: ' ' ::
        ("form-data".toList ++ ';' :: ' ' :: ("name".toList ++ ['=', '"']))) := by decide +kernel
  have hfilename : "\"; filename=\"".toList =
      '"' :: ';' :: ' ' :: ("filename".toList ++ ['=', '"']) := by decide +kernel
  have hempty : "\"\r\n\r\n".toList = ['"', '\r', '\n', '\r', '\n'] := rfl
  have hend : "--\r\n".toList = ['-', '-', '\r', '\n'] := rfl
  unfold writeForm mark headerLine namesText
  simp only [String.toList_append, hfront, hname, hfilename, hempty, hend]
  generalize "Content-Disposition".toList = key, "form-data".toList = kind, "name".toList = name,
    "filename".toList = name'
  simp

/-- **A form with one file is read back.** -/
theorem formFiles_writeForm {boundary field filename content : String} (hnonempty : boundary ≠ "")
    (htoken : ∀ c ∈ boundary.toList, isTokenChar c = true) (hfield : Quotable field.toList)
    (hfilename : Quotable filename.toList)
    (hcontent : ¬ mark boundary.toList <:+: content.toList) :
    formFiles (.ofText ("multipart/form-data; boundary=" ++ boundary))
        (writeForm boundary field filename content) = [⟨some field, filename⟩] := by
  have htype : "multipart/form-data; boundary=" ++ boundary =
      String.ofList ("multipart/form-data".toList ++ ';' :: ' ' ::
        ("boundary".toList ++ '=' :: boundary.toList)) :=
    String.ext (by simp [String.toList_append])
  have hkind (ps : List (String × String)) :
      Header.kind ⟨"multipart/form-data", ps⟩ = "multipart/form-data" := by
    show String.ofList ("multipart/form-data".toList.map Char.toLower) = "multipart/form-data"
    decide +kernel
  have hparam : (Header.param? ⟨"multipart/form-data", [("boundary", boundary)]⟩ "boundary").getD ""
      = boundary := rfl
  have hsome : boundary.toList ≠ [] := by simpa using hnonempty
  have hascii : boundary.toList.all isAscii = true := List.all_eq_true.2 fun c hc =>
    decide_eq_true (Nat.lt_of_le_of_lt (range_of_isTokenChar (htoken c hc)).2 (by decide))
  have hline : '\r' ∉ boundary.toList := fun hmem => nomatch htoken _ hmem
  have hmark : ¬ mark boundary.toList <:+: '\r' :: '\n' :: content.toList := by
    simpa [List.infix_cons_iff, mark] using hcontent
  have hparts (fuel : Nat) : partFiles boundary.toList (fuel + 1)
      (headerLine field.toList filename.toList ++ '\r' :: '\n' :: '\r' :: '\n' ::
        (content.toList ++ '\r' :: '\n' ::
          (mark boundary.toList ++ ['-', '-', '\r', '\n']))) = some [⟨some field, filename⟩] := by
    have hnext := nextBoundary?_of_not_infix hline hmark
    rw [List.cons_append, List.cons_append] at hnext
    rw [partFiles, splitPart?_of_oneLine (oneLine_headerLine hfield hfilename)]
    simp [partFile_headerLine hfield hfilename, hnext]
  rw [htype, contentType_of_token hsome htoken, String.ofList_toList, formFiles, hkind, hparam,
    toList_writeForm, firstBoundary?_of_mark]
  simp [hsome, hascii, hparts]

end ClipScript.Web
