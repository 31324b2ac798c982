/-
# Which descriptions of media files can be used

The prober answers with a description in JSON. It can have a shape that nobody asked for,
and then no media facts come of it. Three cases are told apart. A description may be in
order and list neither a video nor an audio stream, and is refused as such (`Streamless`).
Something in it may be *garbled* (`Garbled`), and reading it fails for a reason that probing
has no words for (`failsWith_ofDescription`): the description itself, the list of streams or
an item of it before the first stream of a kind (`Mislisted`), or, once a stream is found,
one of the facts (`BadFacts`). Any other description gives media facts
(`exists_of_not_garbled`).

What is not looked at cannot be garbled: the items behind the first stream of each kind, and
every fact when there is no stream at all.
-/
import ClipScript.Probe
import ClipScript.Proofs.Media.Reading
import Mathlib.Data.List.TakeWhile

set_option autoImplicit false

namespace ClipScript

open Number

/-! ## Streams -/

/-- A value that is no object. -/
def NoObject (j : Json) : Prop := ∀ ms, j ≠ .object ms

/-- A stream of a kind. -/
def OfKind (kind : String) (j : Json) : Prop :=
  ∃ ms, j = .object ms ∧ Json.get ms "codec_type" = .text kind

/-- Items that are all objects, and no streams of a kind. -/
def Passed (kind : String) (items : List Json) : Prop :=
  ∀ j ∈ items, ¬ NoObject j ∧ ¬ OfKind kind j

/-- **The first stream of a kind** among some items, or none. -/
def IsFirst (kind : String) (items : List Json) : Option (List (String × Json)) → Prop
  | some ms => ∃ before after, items = before ++ .object ms :: after ∧
      Json.get ms "codec_type" = .text kind ∧ Passed kind before
  | none => Passed kind items

/-- **Looking for the first stream of a kind is stopped** by an item that is no object. -/
def Blocked (kind : String) (items : List Json) : Prop :=
  ∃ before j after, items = before ++ j :: after ∧ NoObject j ∧ Passed kind before

variable {kind : String} {j : Json} {items : List Json} {ms : List (String × Json)}

theorem not_noObject : ¬ NoObject (.object ms) := fun h => h ms rfl

theorem ofKind_object : OfKind kind (.object ms) ↔ Json.get ms "codec_type" = .text kind := by
  simp [OfKind]

theorem passed_cons : Passed kind (j :: items) ↔
    (¬ NoObject j ∧ ¬ OfKind kind j) ∧ Passed kind items := List.forall_mem_cons

theorem membersOf_noObject (h : NoObject j) : membersOf j = .error .wrongShape := by
  cases j with
  | object ms => exact absurd rfl (h ms)
  | _ => rfl

theorem exists_of_not_noObject (h : ¬ NoObject j) : ∃ ms, j = .object ms := by
  simpa [NoObject] using h

theorem text?_eq_some {s : String} : j.text? = some s ↔ j = .text s := by
  cases j <;> simp [Json.text?]

/-- Items that are passed do not matter. -/
theorem firstStream_append {before : List Json} (h : Passed kind before) (rest : List Json) :
    firstStream kind (before ++ rest) = firstStream kind rest := by
  induction before with
  | nil => rfl
  | cons j before ih =>
    obtain ⟨⟨hobject, hkind⟩, hbefore⟩ := passed_cons.1 h
    obtain ⟨ms, rfl⟩ := exists_of_not_noObject hobject
    rw [List.cons_append, firstStream]
    exact (if_neg (mt (ofKind_object.2 ∘ text?_eq_some.1) hkind)).trans (ih hbefore)

theorem IsFirst.firstStream_eq {found : Option (List (String × Json))}
    (h : IsFirst kind items found) : firstStream kind items = .ok found := by
  rcases found with _ | ms
  · rw [← List.append_nil items, firstStream_append h, firstStream]
  · obtain ⟨before, after, rfl, hkind, hbefore⟩ := h
    rw [firstStream_append hbefore, firstStream]
    exact if_pos (text?_eq_some.2 hkind)

theorem Blocked.firstStream_eq (h : Blocked kind items) :
    firstStream kind items = .error .wrongShape := by
  obtain ⟨before, j, after, rfl, hobject, hbefore⟩ := h
  rw [firstStream_append hbefore, firstStream, membersOf_noObject hobject]
  rfl

/-- **Looking for the first stream** comes to it, or is stopped. -/
theorem isFirst_or_blocked (kind : String) (items : List Json) :
    (∃ found, IsFirst kind items found) ∨ Blocked kind items := by
  induction items with
  | nil => exact .inl ⟨none, fun j hj => (List.not_mem_nil hj).elim⟩
  | cons j items ih =>
    have hnil : Passed kind [] := fun j hj => (List.not_mem_nil hj).elim
    by_cases hobject : NoObject j
    · exact .inr ⟨[], j, items, rfl, hobject, hnil⟩
    · obtain ⟨ms, rfl⟩ := exists_of_not_noObject hobject
      by_cases hkind : Json.get ms "codec_type" = .text kind
      · exact .inl ⟨some ms, [], items, rfl, hkind, hnil⟩
      · -- the item is passed, and what is behind it decides
        have hpass := And.intro hobject (mt ofKind_object.1 hkind)
        rcases ih with ⟨_ | found, hfound⟩ | ⟨before, j, after, rfl, hstop, hbefore⟩
        · exact .inl ⟨none, passed_cons.2 ⟨hpass, hfound⟩⟩
        · obtain ⟨before, after, rfl, hfirst, hbefore⟩ := hfound
          exact .inl ⟨some found, _ :: before, after, rfl, hfirst, passed_cons.2 ⟨hpass, hbefore⟩⟩
        · exact .inr ⟨_ :: before, j, after, rfl, hstop, passed_cons.2 ⟨hpass, hbefore⟩⟩

/-! ## The list of streams -/

/-- **The items among which the streams of a description are:** those of an array, and none when
the list is missing or an empty text or object. -/
inductive Lists (ms : List (String × Json)) : List Json → Prop where
  | missing (missing : Json.lookup "streams" ms = none) : Lists ms []
  | array {items : List Json} (given : Json.lookup "streams" ms = some (.array items)) :
    Lists ms items
  | empty {j : Json} (given : Json.lookup "streams" ms = some j)
    (empty : j = .text "" ∨ j = .object []) : Lists ms []

/-- **The first video and the first audio stream** of a description, as far as there are any. -/
def Finds (ms : List (String × Json)) (video audio : Option (List (String × Json))) : Prop :=
  ∃ items, Lists ms items ∧ IsFirst "video" items video ∧ IsFirst "audio" items audio

/-- **Streams that cannot be looked for:** the list is something else than an array, or there is
something else than an object before the first stream of a kind. -/
inductive Mislisted (ms : List (String × Json)) : Prop where
  | shape {j : Json} (given : Json.lookup "streams" ms = some j) (array : ∀ items, j ≠ .array items)
    (nonempty : j ≠ .text "" ∧ j ≠ .object [])
  | item {kind : String} {items : List Json} (given : Lists ms items)
    (looked : kind = "video" ∨ kind = "audio") (blocked : Blocked kind items)

theorem Lists.streamsOf_eq (h : Lists ms items) : streamsOf ms = .ok items := by
  cases h with
  | missing missing => rw [streamsOf, missing]
  | array given => rw [streamsOf, given]
  | empty given empty =>
    rcases empty with rfl | rfl
    · rw [streamsOf, given]
      rfl
    · rw [streamsOf, given]
      rfl

/-- What is no array is not gone through, or has texts to go through. -/
theorem streamsOf_shape {j : Json} (given : Json.lookup "streams" ms = some j)
    (array : ∀ items, j ≠ .array items) (nonempty : j ≠ .text "" ∧ j ≠ .object []) :
    streamsOf ms = .error .wrongKind ∨ ∃ c items, streamsOf ms = .ok (.text c :: items) := by
  rw [streamsOf, given]
  rcases j with _ | b | n | x | s | items | members
  case text =>
    have hne : s ≠ "" := fun h => nonempty.1 (by rw [h])
    obtain ⟨c, cs, hs⟩ := List.exists_cons_of_ne_nil (mt String.toList_eq_nil_iff.1 hne)
    refine .inr ⟨String.singleton c, cs.map fun d => .text (String.singleton d), ?_⟩
    simp only [hs, List.map_cons]
  case array => exact absurd rfl (array items)
  case object =>
    obtain ⟨member, others, rfl⟩ :=
      List.exists_cons_of_ne_nil fun (h : members = []) => nonempty.2 (by rw [h])
    exact .inr ⟨_, _, rfl⟩
  all_goals exact .inl rfl

/-- Among texts there is no stream to be found. -/
theorem blocked_text (kind c : String) (items : List Json) : Blocked kind (.text c :: items) :=
  ⟨[], .text c, items, rfl, fun ms => by rintro ⟨⟩, fun j hj => (List.not_mem_nil hj).elim⟩

/-- **The streams are found,** or cannot be looked for. -/
theorem finds_or_mislisted (ms : List (String × Json)) :
    (∃ video audio, Finds ms video audio) ∨ Mislisted ms := by
  have hlists : ∀ items, Lists ms items → (∃ video audio, Finds ms video audio) ∨ Mislisted ms := by
    intro items hitems
    rcases isFirst_or_blocked "video" items with ⟨video, hvideo⟩ | hblocked
    · rcases isFirst_or_blocked "audio" items with ⟨audio, haudio⟩ | hblocked
      · exact .inl ⟨video, audio, items, hitems, hvideo, haudio⟩
      · exact .inr (.item hitems (.inr rfl) hblocked)
    · exact .inr (.item hitems (.inl rfl) hblocked)
  rcases hgiven : Json.lookup "streams" ms with _ | j
  · exact hlists [] (.missing hgiven)
  · by_cases harray : ∃ items, j = .array items
    · obtain ⟨items, rfl⟩ := harray
      exact hlists items (.array hgiven)
    · by_cases hempty : j = .text "" ∨ j = .object []
      · exact hlists [] (.empty hgiven hempty)
      · exact .inr (.shape hgiven (not_exists.1 harray) (not_or.1 hempty))

section

variable {α : Type} (k : Option (List (String × Json)) → Option (List (String × Json)) →
  Except Fault α)

/-- Looking for the streams, and going on with them. -/
theorem Finds.bind_eq {video audio : Option (List (String × Json))} (h : Finds ms video audio) :
    (do
      let streams ← streamsOf ms
      let video ← firstStream "video" streams
      let audio ← firstStream "audio" streams
      k video audio) = k video audio := by
  obtain ⟨items, hitems, hvideo, haudio⟩ := h
  rw [hitems.streamsOf_eq]
  simp only [bind, Except.bind]
  rw [hvideo.firstStream_eq, haudio.firstStream_eq]

theorem Mislisted.bind_eq (h : Mislisted ms) :
    ∃ f, (f = .wrongShape ∨ f = .wrongKind) ∧
      (do
        let streams ← streamsOf ms
        let video ← firstStream "video" streams
        let audio ← firstStream "audio" streams
        k video audio) = .error f := by
  have hblocked (items : List Json) (h : Blocked "video" items ∨ Blocked "audio" items) :
      (do
        let video ← firstStream "video" items
        let audio ← firstStream "audio" items
        k video audio) = .error .wrongShape := by
    rcases isFirst_or_blocked "video" items with ⟨video, hvideo⟩ | hvideo
    · rw [hvideo.firstStream_eq]
      rcases h with hstop | hstop
      · cases hvideo.firstStream_eq.symm.trans hstop.firstStream_eq
      · simp only [bind, Except.bind, hstop.firstStream_eq]
    · rw [hvideo.firstStream_eq]
      rfl
  cases h with
  | shape given array nonempty =>
    rcases streamsOf_shape given array nonempty with hkind | ⟨c, items, htexts⟩
    · exact ⟨.wrongKind, .inr rfl, by rw [hkind]; rfl⟩
    · rw [htexts]
      exact ⟨.wrongShape, .inl rfl, hblocked (.text c :: items) (.inl (blocked_text _ c items))⟩
  | item given looked blocked =>
    rw [given.streamsOf_eq]
    refine ⟨.wrongShape, .inl rfl, hblocked _ ?_⟩
    rcases looked with rfl | rfl
    · exact .inl blocked
    · exact .inr blocked

end

/-! ## Frame rates -/

/-- **A frame rate that is no number,** nor a quotient of two whole numbers. -/
inductive BadRate : Json → Prop where
  | shape {j : Json} (given : j.isGiven = true) (text : ∀ s, j ≠ .text s) : BadRate j
  /-- There is nothing behind the slash, or no slash at all. -/
  | number {s : String} {cs : List Char} (nonempty : s ≠ "")
    (text : s.toList = cs ∨ s.toList = cs ++ ['/']) (slash : '/' ∉ cs)
    (fails : Fails (readDecimal (String.ofList cs))) : BadRate (.text s)
  | denominator {s : String} {cs ds : List Char} (text : s.toList = cs ++ '/' :: ds)
    (slash : '/' ∉ cs) (nonempty : ds ≠ [])
    (fails : Fails (readInt (String.ofList ds))) : BadRate (.text s)
  | numerator {s : String} {cs ds : List Char} {d : Int} (text : s.toList = cs ++ '/' :: ds)
    (slash : '/' ∉ cs) (nonempty : ds ≠ []) (denominator : readInt (String.ofList ds) = .ok d)
    (nonzero : d ≠ 0) (fails : Fails (readInt (String.ofList cs))) : BadRate (.text s)
  | quotient {s : String} {cs ds : List Char} {n d : Int} (text : s.toList = cs ++ '/' :: ds)
    (slash : '/' ∉ cs) (nonempty : ds ≠ []) (denominator : readInt (String.ofList ds) = .ok d)
    (nonzero : d ≠ 0) (numerator : readInt (String.ofList cs) = .ok n)
    (fails : Fails (quotient n d)) : BadRate (.text s)

/-- The two parts of a frame rate. -/
theorem rate_parts {cs ds : List Char} (slash : '/' ∉ cs) :
    (cs ++ '/' :: ds).takeWhile (· != '/') = cs ∧
      (cs ++ '/' :: ds).drop (cs.length + 1) = ds := by
  constructor
  · rw [List.takeWhile_append_of_pos fun c hc => by simpa using ne_of_mem_of_not_mem hc slash,
      List.takeWhile_cons_of_neg (by decide), List.append_nil]
  · rw [List.drop_append]
    simp

theorem frameRate_number {s : String} {cs : List Char} (nonempty : s ≠ "")
    (text : s.toList = cs ∨ s.toList = cs ++ ['/']) (slash : '/' ∉ cs) :
    frameRate (.text s) = (readDecimal (String.ofList cs)).map some := by
  obtain ⟨htake, hdrop⟩ :
      s.toList.takeWhile (· != '/') = cs ∧ s.toList.drop (cs.length + 1) = [] := by
    rcases text with text | text
    · rw [text]
      refine ⟨List.takeWhile_eq_self_iff.2 fun c hc => ?_, List.drop_of_length_le (Nat.le_succ _)⟩
      simpa using ne_of_mem_of_not_mem hc slash
    · rw [text]
      exact rate_parts slash
  rw [frameRate]
  simp [nonempty, htake, hdrop]

theorem frameRate_quotient {s : String} {cs ds : List Char} (text : s.toList = cs ++ '/' :: ds)
    (slash : '/' ∉ cs) (nonempty : ds ≠ []) :
    frameRate (.text s) = (do
      let d ← readInt (String.ofList ds)
      if d = 0 then return none
      else return some (← quotient (← readInt (String.ofList cs)) d)) := by
  have hne : s ≠ "" := by
    rintro rfl
    simp at text
  obtain ⟨htake, hdrop⟩ := @rate_parts cs ds slash
  rw [← text] at htake hdrop
  rw [frameRate]
  simp [hne, htake, hdrop, nonempty]

/-- A frame rate in a text is a number, perhaps with a slash behind it, or two parts. -/
theorem rate_cases (cs : List Char) :
    (∃ num, '/' ∉ num ∧ (cs = num ∨ cs = num ++ ['/'])) ∨
      ∃ num den, '/' ∉ num ∧ den ≠ [] ∧ cs = num ++ '/' :: den := by
  by_cases hslash : '/' ∈ cs
  · obtain ⟨num, den, rfl, hnum⟩ := List.eq_append_cons_of_mem hslash
    rcases eq_or_ne den [] with rfl | hden
    · exact .inl ⟨num, hnum, .inr rfl⟩
    · exact .inr ⟨num, den, hnum, hden, rfl⟩
  · exact .inl ⟨cs, hslash, .inl rfl⟩

/-- **A frame rate cannot be read** exactly if it is a bad one. -/
theorem fails_frameRate {j : Json} : Fails (frameRate j) ↔ BadRate j := by
  constructor
  · intro h
    by_cases htext : ∃ s, j = .text s
    · obtain ⟨s, rfl⟩ := htext
      rcases eq_or_ne s "" with rfl | hne
      · exact absurd h not_fails_ok
      · rcases rate_cases s.toList with ⟨num, hnum, htext⟩ | ⟨num, den, hnum, hden, htext⟩
        · rw [frameRate_number hne htext hnum, fails_map] at h
          exact .number hne htext hnum h
        · rw [frameRate_quotient htext hnum hden] at h
          rcases fails_bind.1 h with hfails | ⟨d, hd, h⟩
          · exact .denominator htext hnum hden hfails
          · split at h
            · exact absurd h not_fails_ok
            · next hzero =>
              rcases fails_bind.1 h with hfails | ⟨n, hn, h⟩
              · exact .numerator htext hnum hden hd hzero hfails
              · rcases fails_bind.1 h with hfails | ⟨x, -, hdone⟩
                · exact .quotient htext hnum hden hd hzero hn hfails
                · exact absurd hdone not_fails_ok
    · refine .shape ?_ (not_exists.1 htext)
      by_contra hgiven
      rw [frameRate, if_neg hgiven] at h
      · exact not_fails_ok h
      · exact not_exists.1 htext
  · rintro (⟨given, text⟩ | ⟨nonempty, text, slash, fails⟩ | ⟨text, slash, nonempty, fails⟩ |
      ⟨text, slash, nonempty, denominator, nonzero, fails⟩ |
      ⟨text, slash, nonempty, denominator, nonzero, numerator, fails⟩)
    · rw [frameRate, if_pos given]
      · exact fails_error
      · exact text
    · rw [frameRate_number nonempty text slash, fails_map]
      exact fails
    · rw [frameRate_quotient text slash nonempty, fails_bind]
      exact .inl fails
    · rw [frameRate_quotient text slash nonempty, fails_bind]
      refine .inr ⟨_, denominator, ?_⟩
      rw [if_neg nonzero, fails_bind]
      exact .inl fails
    · rw [frameRate_quotient text slash nonempty, fails_bind]
      refine .inr ⟨_, denominator, ?_⟩
      rw [if_neg nonzero, fails_bind]
      refine .inr ⟨_, numerator, ?_⟩
      rw [fails_bind]
      exact .inl fails

/-! ## Facts -/

/-- **Facts that cannot be read,** once the streams are found. -/
inductive BadFacts (ms : List (String × Json)) (video audio : Option (List (String × Json))) :
    Prop where
  | format {j : Json} (given : Json.lookup "format" ms = some j) (shape : NoObject j)
  | dimension {v : List (String × Json)} {name : String} {j : Json} (stream : video = some v)
    (looked : name = "width" ∨ name = "height") (given : Json.lookup name v = some j)
    (fails : Fails (Descriptor.intOfJson j))
  | duration {fs : List (String × Json)} (format : Json.lookup "format" ms = some (.object fs))
    (given : Json.get fs "duration" ≠ .null)
    (fails : Fails (Descriptor.doubleOfJson (Json.get fs "duration")))
  | rate {v : List (String × Json)} (stream : video = some v)
    (bad : BadRate (Json.get v "r_frame_rate"))
  | codec {v : List (String × Json)} (stream : video = some v ∨ audio = some v)
    (missing : Json.lookup "codec_name" v = none)

/-- The facts of the streams, and the length that a format says. -/
def factsWith (format : List (String × Json)) (filename : Option String)
    (video audio : Option (List (String × Json))) : Except Fault Descriptor := do
  let width ← dimension "width" video
  let height ← dimension "height" video
  let duration ← Descriptor.optional Descriptor.doubleOfJson (Json.get format "duration")
  let fps ← frameRate ((video.map fun v => Json.get v "r_frame_rate").getD .null)
  let videoCodec ← codecOf video
  let audioCodec ← codecOf audio
  return { filename := .ofText? filename, width, height, duration, fps, videoCodec, audioCodec }

/-- The facts of a description in which the streams are found. -/
def factsFrom (ms : List (String × Json)) (filename : Option String)
    (video audio : Option (List (String × Json))) : Except Fault Descriptor := do
  let format ← membersOf ((Json.lookup "format" ms).getD (.object []))
  factsWith format filename video audio

section

variable {video audio : Option (List (String × Json))} {filename : Option String}

theorem fails_membersOf : Fails (membersOf j) ↔ NoObject j := by
  cases j with
  | object ms => exact ⟨fun h => absurd h not_fails_ok, fun h => absurd h not_noObject⟩
  | _ => exact ⟨fun _ ms => by rintro ⟨⟩, fun _ => fails_error⟩

theorem fails_dimension {name : String} : Fails (dimension name video) ↔
    ∃ v j, video = some v ∧ Json.lookup name v = some j ∧ Fails (Descriptor.intOfJson j) := by
  rw [dimension]
  rcases video with _ | v
  · simp
  · rcases hj : Json.lookup name v with _ | j
    · simp [hj]
    · simp [hj, fails_map]

theorem fails_optional {α : Type} {read : Json → Except Fault α} :
    Fails (Descriptor.optional read j) ↔ j ≠ .null ∧ Fails (read j) := by
  cases j with
  | null => simp [Descriptor.optional]
  | _ => exact fails_map.trans (by simp)

theorem fails_codecOf : Fails (codecOf video) ↔
    ∃ v, video = some v ∧ Json.lookup "codec_name" v = none := by
  rcases video with _ | v
  · simp [codecOf]
  · rw [codecOf]
    rcases hj : Json.lookup "codec_name" v with _ | j
    · simp [hj]
    · simp [hj]

theorem fails_rate : Fails (frameRate ((video.map fun v => Json.get v "r_frame_rate").getD .null)) ↔
    ∃ v, video = some v ∧ BadRate (Json.get v "r_frame_rate") := by
  rcases video with _ | v
  · exact ⟨fun h => absurd h not_fails_ok, by rintro ⟨_, ⟨⟩, _⟩⟩
  · simp [fails_frameRate]

theorem fails_factsWith {format : List (String × Json)} :
    Fails (factsWith format filename video audio) ↔
      Fails (dimension "width" video) ∨ Fails (dimension "height" video) ∨
        Fails (Descriptor.optional Descriptor.doubleOfJson (Json.get format "duration")) ∨
        Fails (frameRate ((video.map fun v => Json.get v "r_frame_rate").getD .null)) ∨
        Fails (codecOf video) ∨ Fails (codecOf audio) ∨ False := by
  refine fails_bind_of_forall fun _ _ => fails_bind_of_forall fun _ _ =>
    fails_bind_of_forall fun _ _ => fails_bind_of_forall fun _ _ =>
    fails_bind_of_forall fun _ _ => fails_bind_of_forall fun _ _ => ?_
  exact iff_false_intro not_fails_ok

/-- A format that is missing says nothing. -/
theorem format_eq_ok {format : List (String × Json)} :
    membersOf ((Json.lookup "format" ms).getD (.object [])) = .ok format ↔
      Json.lookup "format" ms = none ∧ format = [] ∨
        Json.lookup "format" ms = some (.object format) := by
  rcases Json.lookup "format" ms with _ | j
  · simp [membersOf, eq_comm]
  · cases j <;> simp [membersOf]

theorem fails_format : Fails (membersOf ((Json.lookup "format" ms).getD (.object []))) ↔
    ∃ j, Json.lookup "format" ms = some j ∧ NoObject j := by
  rw [fails_membersOf]
  rcases Json.lookup "format" ms with _ | j
  · simpa using not_noObject
  · simp

/-- **The facts of a description cannot be read** exactly if one of them is bad. -/
theorem fails_factsFrom : Fails (factsFrom ms filename video audio) ↔ BadFacts ms video audio := by
  rw [factsFrom, fails_bind, fails_format]
  simp only [fails_factsWith, fails_dimension, fails_optional, fails_rate, fails_codecOf, or_false,
    format_eq_ok]
  constructor
  · rintro (⟨j, hj, hshape⟩ | ⟨format, hformat, h⟩)
    · exact .format hj hshape
    · rcases h with ⟨v, j, hv, hj, hfails⟩ | ⟨v, j, hv, hj, hfails⟩ | ⟨hgiven, hfails⟩ |
        ⟨v, hv, hbad⟩ | ⟨v, hv, hmissing⟩ | ⟨v, hv, hmissing⟩
      · exact .dimension hv (.inl rfl) hj hfails
      · exact .dimension hv (.inr rfl) hj hfails
      · rcases hformat with ⟨-, rfl⟩ | hformat
        · exact absurd rfl hgiven
        · exact .duration hformat hgiven hfails
      · exact .rate hv hbad
      · exact .codec (.inl hv) hmissing
      · exact .codec (.inr hv) hmissing
  · intro h
    -- without a format that is bad there is one to go on with
    by_cases hformat : ∃ j, Json.lookup "format" ms = some j ∧ NoObject j
    · exact .inl hformat
    · obtain ⟨format, hok⟩ := not_fails_iff.1 (mt fails_format.1 hformat)
      refine .inr ⟨format, format_eq_ok.1 hok, ?_⟩
      cases h with
      | format given shape => exact absurd ⟨_, given, shape⟩ hformat
      | dimension stream looked given fails =>
        rcases looked with rfl | rfl
        · exact .inl ⟨_, _, stream, given, fails⟩
        · exact .inr (.inl ⟨_, _, stream, given, fails⟩)
      | duration given known fails =>
        rcases format_eq_ok.1 hok with ⟨hnone, -⟩ | hsome
        · cases hnone.symm.trans given
        · obtain rfl := Json.object.inj (Option.some.inj (hsome.symm.trans given))
          exact .inr (.inr (.inl ⟨known, fails⟩))
      | rate stream bad => exact .inr (.inr (.inr (.inl ⟨_, stream, bad⟩)))
      | codec stream missing =>
        rcases stream with hvideo | haudio
        · exact .inr (.inr (.inr (.inr (.inl ⟨_, hvideo, missing⟩))))
        · exact .inr (.inr (.inr (.inr (.inr ⟨_, haudio, missing⟩))))

end

/-! ## Faults -/

/-- **A fault that probing has no words for:** neither a missing stream nor a failed call. -/
def Fault.Unexplained (f : Fault) : Prop := f.family ≠ .noMediaStream ∧ f.family ≠ .proberFailed

instance (f : Fault) : Decidable f.Unexplained := inferInstanceAs (Decidable (_ ∧ _))

theorem Fault.Unexplained.of_family {f : Fault} (family : Family) (h : f.family = family)
    (hother : family ≠ .noMediaStream ∧ family ≠ .proberFailed) : f.Unexplained := by
  rwa [Unexplained, h]

theorem Fault.unexplained_of_badValue {f : Fault} (h : f.family = .badValue) : f.Unexplained :=
  .of_family .badValue h (by decide)

theorem unexplained_of_membersOf (j : Json) : FailsOnly Fault.Unexplained (membersOf j) := by
  cases j with
  | object ms => exact .ok
  | _ => exact .error (.of_family .wrongShape rfl (by decide))

theorem unexplained_of_intOfJson (j : Json) :
    FailsOnly Fault.Unexplained (Descriptor.intOfJson j) := by
  cases j with
  | bool b => exact .ok
  | whole n => exact .ok
  | real x =>
    cases x with
    | nan => exact .error (.of_family .badValue rfl (by decide))
    | infinity negative => exact .error (.of_family .overflow rfl (by decide))
    | negativeZero => exact .ok
    | finite q => exact .ok
  | text s => exact (badValue_of_readInt s).mono fun _ => Fault.unexplained_of_badValue
  | _ => exact .error (.of_family .wrongKind rfl (by decide))

theorem unexplained_of_doubleOfJson (j : Json) :
    FailsOnly Fault.Unexplained (Descriptor.doubleOfJson j) := by
  cases j with
  | bool b => exact .ok
  | whole n =>
    rw [Descriptor.doubleOfJson, doubleOfInt]
    split
    · exact .ok
    · exact .error (.of_family .overflow rfl (by decide))
  | real x => exact .ok
  | text s => exact (badValue_of_readDecimal s).mono fun _ => Fault.unexplained_of_badValue
  | _ => exact .error (.of_family .wrongKind rfl (by decide))

theorem unexplained_of_quotient (n d : Int) : FailsOnly Fault.Unexplained (quotient n d) := by
  unfold quotient
  extract_lets x
  split
  · exact .ok
  · exact .error (.of_family .overflow rfl (by decide))

theorem unexplained_of_frameRate (j : Json) : FailsOnly Fault.Unexplained (frameRate j) := by
  have hint (cs : List Char) : FailsOnly Fault.Unexplained (readInt (String.ofList cs)) :=
    (badValue_of_readInt _).mono fun _ => Fault.unexplained_of_badValue
  by_cases htext : ∃ s, j = .text s
  · obtain ⟨s, rfl⟩ := htext
    rw [frameRate]
    split
    · exact .ok
    · dsimp only
      split
      · exact ((badValue_of_readDecimal _).mono fun _ => Fault.unexplained_of_badValue).map
      · refine .bind (hint _) fun d _ => ?_
        split
        · exact .ok
        · exact .bind (hint _) fun n _ => .bind (unexplained_of_quotient n d) fun _ _ => .ok
  · rw [frameRate]
    · split
      · exact .error (.of_family .wrongShape rfl (by decide))
      · exact .ok
    · exact not_exists.1 htext

theorem unexplained_of_dimension (name : String) (video : Option (List (String × Json))) :
    FailsOnly Fault.Unexplained (dimension name video) := by
  rw [dimension]
  split
  · exact .ok
  · exact (unexplained_of_intOfJson _).map

theorem unexplained_of_codecOf (stream : Option (List (String × Json))) :
    FailsOnly Fault.Unexplained (codecOf stream) := by
  rw [codecOf.eq_def]
  split
  · exact .ok
  · split
    · exact .ok
    · exact .error (by decide)

theorem unexplained_of_optional (j : Json) :
    FailsOnly Fault.Unexplained (Descriptor.optional Descriptor.doubleOfJson j) := by
  cases j with
  | null => exact .ok
  | bool b => exact .ok
  | whole n => exact (unexplained_of_doubleOfJson (.whole n)).map
  | real x => exact .ok
  | text s => exact (unexplained_of_doubleOfJson (.text s)).map
  | array items => exact .error (.of_family .wrongKind rfl (by decide))
  | object members => exact .error (.of_family .wrongKind rfl (by decide))

theorem unexplained_of_factsFrom (ms : List (String × Json)) (filename : Option String)
    (video audio : Option (List (String × Json))) :
    FailsOnly Fault.Unexplained (factsFrom ms filename video audio) :=
  .bind (unexplained_of_membersOf _) fun _ _ =>
    .bind (unexplained_of_dimension _ _) fun _ _ => .bind (unexplained_of_dimension _ _) fun _ _ =>
    .bind (unexplained_of_optional _) fun _ _ => .bind (unexplained_of_frameRate _) fun _ _ =>
    .bind (unexplained_of_codecOf _) fun _ _ => .bind (unexplained_of_codecOf _) fun _ _ => .ok

/-! ## Descriptions -/

/-- **A garbled description.** -/
inductive Garbled : Json → Prop where
  | shape {j : Json} (shape : NoObject j) : Garbled j
  | streams {ms : List (String × Json)} (streams : Mislisted ms) : Garbled (.object ms)
  | facts {ms : List (String × Json)} {video audio : Option (List (String × Json))}
    (finds : Finds ms video audio) (stream : video ≠ none ∨ audio ≠ none)
    (facts : BadFacts ms video audio) : Garbled (.object ms)

/-- **A description without streams:** it is in order, and lists no stream of either kind. -/
def Streamless (j : Json) : Prop := ∃ ms, j = .object ms ∧ Finds ms none none

/-- What comes of the streams of a description. -/
theorem ofDescription_object (filename : Option String) :
    Descriptor.ofDescription (.object ms) filename = (do
      let streams ← streamsOf ms
      let video ← firstStream "video" streams
      let audio ← firstStream "audio" streams
      if video.isNone && audio.isNone then .error (.noMediaStream (filename.getD "None"))
      else factsFrom ms filename video audio) := rfl

/-- **A description without streams** is refused as such. -/
theorem Streamless.ofDescription_eq (h : Streamless j) (filename : Option String) :
    Descriptor.ofDescription j filename = .error (.noMediaStream (filename.getD "None")) := by
  obtain ⟨ms, rfl, hfinds⟩ := h
  rw [ofDescription_object]
  exact hfinds.bind_eq _

theorem Finds.ofDescription_eq {video audio : Option (List (String × Json))}
    (h : Finds ms video audio) (hstream : video ≠ none ∨ audio ≠ none)
    (filename : Option String) :
    Descriptor.ofDescription (.object ms) filename = factsFrom ms filename video audio := by
  rw [ofDescription_object]
  refine (h.bind_eq _).trans (if_neg ?_)
  rw [Bool.and_eq_true, Option.isNone_iff_eq_none, Option.isNone_iff_eq_none, not_and_or]
  exact hstream

/-- **A description fails for no reason that probing has words for** exactly if it is garbled. -/
theorem failsWith_ofDescription {filename : Option String} :
    FailsWith Fault.Unexplained (Descriptor.ofDescription j filename) ↔ Garbled j := by
  constructor
  · intro h
    by_cases hobject : NoObject j
    · exact .shape hobject
    · obtain ⟨ms, rfl⟩ := exists_of_not_noObject hobject
      rcases finds_or_mislisted ms with ⟨video, audio, hfinds⟩ | hmislisted
      · by_cases hstream : video ≠ none ∨ audio ≠ none
        · rw [hfinds.ofDescription_eq hstream] at h
          obtain ⟨f, hf, -⟩ := h
          exact .facts hfinds hstream (fails_factsFrom.1 ⟨f, hf⟩)
        · rw [not_or, not_not, not_not] at hstream
          obtain ⟨rfl, rfl⟩ := hstream
          rw [Streamless.ofDescription_eq ⟨ms, rfl, hfinds⟩, failsWith_error] at h
          exact absurd rfl h.1
      · exact .streams hmislisted
  · intro h
    cases h with
    | shape shape =>
      rw [Descriptor.ofDescription, membersOf_noObject shape]
      exact failsWith_error.2 (by decide)
    | streams streams =>
      obtain ⟨f, hf, herror⟩ := streams.bind_eq _
      rw [ofDescription_object, herror, failsWith_error]
      rcases hf with rfl | rfl <;> decide
    | facts finds stream facts =>
      rw [finds.ofDescription_eq stream]
      obtain ⟨f, hf⟩ := fails_factsFrom.2 facts
      exact ⟨f, hf, unexplained_of_factsFrom _ _ _ _ f hf⟩

/-- **What comes of a description** that is not garbled: it has no streams, or it gives media
facts. -/
theorem exists_of_not_garbled (h : ¬ Garbled j) (hstream : ¬ Streamless j)
    (filename : Option String) : ∃ d, Descriptor.ofDescription j filename = .ok d := by
  obtain ⟨ms, rfl⟩ := exists_of_not_noObject (mt Garbled.shape h)
  rcases finds_or_mislisted ms with ⟨video, audio, hfinds⟩ | hmislisted
  · have hsome : video ≠ none ∨ audio ≠ none := by
      by_contra hnone
      rw [not_or, not_not, not_not] at hnone
      obtain ⟨rfl, rfl⟩ := hnone
      exact hstream ⟨ms, rfl, hfinds⟩
    rw [hfinds.ofDescription_eq hsome]
    exact not_fails_iff.1 fun hfails => h (.facts hfinds hsome (fails_factsFrom.1 hfails))
  · exact absurd (.streams hmislisted) h

end ClipScript
