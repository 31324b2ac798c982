/-
# Fragments and the texts in them

Every part of a fragment that is not a text of the user is solid: the names of filters and
options, the numbers, and the coordinates, which are expressions in sizes and numbers. A
text of the user is quoted, which makes it mute, so it is solid too. A fragment is therefore
made of solid filters, and their names are known from the command (`exists_parts_of_build`).
Only an image is more than that, because its filters are joined by labels (`build_image`).

Fragments with different texts are *alike*: they are closed, and have the same marks
(`drawText_agrees`, `subtitlesText_alike`, `imageText_agrees`).
-/
import ClipScript.Proofs.Compilation.Options
import ClipScript.Proofs.Failing
import ClipScript.Proofs.Filter.Chains
import Mathlib.Data.List.Forall2

set_option autoImplicit false

namespace ClipScript

namespace Filter

/-! ## Fragments that are alike -/

/-- **Alike:** two closed texts with the same marks. -/
structure Alike (s t : String) : Prop where
  left : Closed s
  right : Closed t
  marks_eq : marks s = marks t

namespace Alike

variable {s s' t t' : String}

theorem refl (h : Closed t) : Alike t t := ⟨h, h, rfl⟩

/-- Alike texts behind alike texts. -/
theorem append (hs : Alike s s') (ht : Alike t t') : Alike (s ++ t) (s' ++ t') := by
  refine ⟨hs.left.append ht.left, hs.right.append ht.right, ?_⟩
  rw [hs.left.marks_append, hs.right.marks_append, hs.marks_eq, ht.marks_eq]

/-- The same text behind and in front of alike ones. -/
theorem between {before after : String} (hbefore : Closed before) (h : Alike t t')
    (hafter : Closed after) : Alike (before ++ t ++ after) (before ++ t' ++ after) :=
  ((refl hbefore).append h).append (refl hafter)

theorem of_mute (hs : Mute s.toList) (ht : Mute t.toList) : Alike s t :=
  ⟨hs.closed, ht.closed, hs.marks.trans ht.marks.symm⟩

/-- Chains of alike fragments are alike. -/
theorem intercalate {ts ts' : List String} (h : List.Forall₂ Alike ts ts') :
    Alike (String.intercalate "," ts) (String.intercalate "," ts') := by
  have hcomma : Closed "," := by decide
  induction h with
  | nil => exact refl (closed_intercalate (by simp))
  | @cons t t' ts ts' ht hts ih =>
    by_cases hnil : ts = []
    · subst hnil
      obtain rfl := List.forall₂_nil_left_iff.1 hts
      rw [String.intercalate_singleton, String.intercalate_singleton]
      exact ht
    · have hnil' : ts' ≠ [] := by
        rintro rfl
        exact hnil (List.forall₂_nil_right_iff.1 hts)
      rw [String.intercalate_cons_of_ne_nil hnil, String.intercalate_cons_of_ne_nil hnil']
      exact (ht.append (refl hcomma)).append ih

end Alike

/-- Fragments that are alike, one by one, are all closed. -/
theorem closed_of_alike {ts ts' : List String} (h : List.Forall₂ Alike ts ts') :
    (∀ t ∈ ts, Closed t) ∧ ∀ t ∈ ts', Closed t := by
  induction h with
  | nil => simp
  | cons ht _ ih =>
    rw [List.forall_mem_cons, List.forall_mem_cons]
    exact ⟨⟨ht.left, ih.1⟩, ht.right, ih.2⟩

/-! ## Numbers and places -/

theorem solid_writeInt (n : Int) : Gives Solid (Number.writeInt n) :=
  fun t ht => solid_of_numeral (Number.numeral_writeInt n t ht)

theorem solid_formatNumber (x : Double) : Gives Solid (formatNumber x) :=
  fun t ht => solid_of_numeral (numeral_formatNumber x t ht)

theorem solid_coordinate {sizes : Sizes} {padding : String} (hframe : Solid sizes.frame)
    (hown : Solid sizes.own) (hpadding : Solid padding) (b : Band) :
    Solid (b.coordinate sizes padding) := by
  cases b with
  | first => exact hpadding
  | middle =>
    have hopen : Solid "(" := by decide
    have hminus : Solid "-" := by decide
    have hhalf : Solid ")/2" := by decide
    exact (((hopen.append hframe).append hminus).append hown).append hhalf
  | last =>
    have hminus : Solid "-" := by decide
    exact (((hframe.append hminus).append hown).append hminus).append hpadding

theorem solid_textCoordinates (place : Word Placement) (margin : Int) :
    Gives (fun xy => Solid xy.1 ∧ Solid xy.2) (textCoordinates place margin) := by
  refine .bind fun padding hpadding => ?_
  have hclosed := solid_writeInt _ padding hpadding
  cases place with
  | known p =>
    exact .ok ⟨solid_coordinate (by decide) (by decide) hclosed _,
      solid_coordinate (by decide) (by decide) hclosed _⟩
  | other text =>
    intro xy h
    cases h

theorem solid_imageCoordinates (place : Word Placement) :
    Gives (fun xy => Solid xy.1 ∧ Solid xy.2) (imageCoordinates place) := by
  have hpadding : Solid (toString edgePadding) :=
    solid_of_numeral (Number.numeral_toString edgePadding)
  cases place with
  | known p =>
    exact .ok ⟨solid_coordinate (by decide) (by decide) hpadding _,
      solid_coordinate (by decide) (by decide) hpadding _⟩
  | other text =>
    intro xy h
    cases h

/-! ## Filters without texts -/

theorem titled_scaleText (width height : Int) (aspect : Word Aspect) :
    Gives (Titled "scale") (scaleText width height aspect) := by
  have hname : Titled "scale" "scale=" := ⟨by decide, by decide⟩
  have hcolon : Solid ":" := by decide
  have hkeep : Solid ":force_original_aspect_ratio=decrease" := by decide
  refine .bind fun w hw => .bind fun h hh => ?_
  have hsize : Titled "scale" ("scale=" ++ w ++ ":" ++ h) :=
    ((hname.append (solid_writeInt _ w hw)).append hcolon).append (solid_writeInt _ h hh)
  split
  · exact .ok (hsize.append hkeep)
  · exact .ok hsize

theorem solid_remaining {dimension : String} (hdimension : Solid dimension) (taken : Int) :
    Gives Solid (remaining dimension taken) := by
  have hminus : Solid "-" := by decide
  unfold remaining
  split
  · exact .ok hdimension
  · exact .bind fun t ht => .ok ((hdimension.append hminus).append (solid_writeInt _ t ht))

theorem titled_filter (m : Margins) (d : Option Descriptor) :
    Gives (Titled "crop") (m.filter d) := by
  have hsized : ∀ w h : String, Solid w → Solid h → Gives (Titled "crop") (do
      return "crop=" ++ w ++ ":" ++ h ++ ":" ++ (← Number.writeInt m.left) ++ ":" ++
        (← Number.writeInt m.top)) := by
    intro w h hw hh
    have hname : Titled "crop" "crop=" := ⟨by decide, by decide⟩
    have hcolon : Solid ":" := by decide
    refine .bind fun left hleft => .bind fun top htop => .ok ?_
    have hcorner := ((((hname.append hw).append hcolon).append hh).append hcolon).append
      (solid_writeInt _ left hleft)
    exact (hcorner.append hcolon).append (solid_writeInt _ top htop)
  rw [Margins.filter]
  refine .bind fun _ _ => ?_
  split
  · exact .bind fun w hw => .bind fun h hh =>
      hsized w h (solid_writeInt _ w hw) (solid_writeInt _ h hh)
  · exact .bind fun w hw => .bind fun h hh =>
      hsized w h (solid_remaining (by decide) _ w hw) (solid_remaining (by decide) _ h hh)

theorem titled_borderFilter : Titled "cropdetect" borderFilter := ⟨by decide, by decide⟩

theorem titled_deduplicate (cycle : Int) :
    Gives (Titled "decimate") ((Number.writeInt cycle).map ("decimate=cycle=" ++ ·)) := by
  have hname : Titled "decimate" "decimate=cycle=" := ⟨by decide, by decide⟩
  exact .map fun w hw => hname.append (solid_writeInt _ w hw)

theorem solid_fadeOutStart (duration : Double) (output : Option Double) :
    Gives Solid (fadeOutStart duration output) := by
  cases output with
  | none => exact .ok (by decide)
  | some length => exact solid_formatNumber _

/-- A fade is made of filters of that name. -/
theorem exists_fades {direction : Word FadeDirection} {duration : Double}
    {output : Option Double} {n : Nat} {t : String}
    (h : (fadeStep direction duration output n).outcome = .ok (some (.fragment t))) :
    ∃ parts, t = String.intercalate "," parts ∧ ∀ p ∈ parts, Titled "fade" p := by
  obtain ⟨text, parts, htext, rfl, hparts⟩ := exists_parts_of_fadeStep h
  have hlength := solid_formatNumber _ text htext
  refine ⟨parts, rfl, fun p hp => ?_⟩
  rcases hparts p hp with rfl | ⟨start, hstart, rfl⟩
  · have hin : Titled "fade" "fade=t=in:st=0:d=" := ⟨by decide, by decide⟩
    exact hin.append hlength
  · have hout : Titled "fade" "fade=t=out:st=" := ⟨by decide, by decide⟩
    have hd : Solid ":d=" := by decide
    exact ((hout.append (solid_fadeOutStart _ _ start hstart)).append hd).append hlength

/-! ## Filters with texts -/

/-- The quotes around a text that is drawn stand at the ends of what is before it and behind it. -/
theorem drawn_between_quotes (text : String) :
    "drawtext=text='" ++ drawn text ++ "':fontsize=24:fontcolor=white:x=" =
      "drawtext=text=" ++ ("'" ++ drawn text ++ "'") ++ ":fontsize=24:fontcolor=white:x=" := by
  rw [show "drawtext=text='" = "drawtext=text=" ++ "'" from rfl,
    show "':fontsize=24:fontcolor=white:x=" = "'" ++ ":fontsize=24:fontcolor=white:x=" from rfl]
  simp only [String.append_assoc]

/-- **Drawing another text** at the same place. -/
theorem drawText_agrees (text text' : String) (place : Word Placement) (alignment : Alignment)
    (margin : Int) :
    Agree Alike (drawText text place (.known alignment) margin)
      (drawText text' place (.known alignment) margin) := by
  have hname : Closed "drawtext=text=" := by decide
  have hfont : Closed ":fontsize=24:fontcolor=white:x=" := by decide
  have hy : Closed ":y=" := by decide
  have hdrawn : Alike ("'" ++ drawn text ++ "'") ("'" ++ drawn text' ++ "'") :=
    .of_mute (mute_drawn text) (mute_drawn text')
  refine .bind (.refl (R := fun xy uv => xy = uv) fun _ _ => rfl) ?_
  rintro ⟨x, y⟩ _ hxy - rfl
  obtain ⟨hx, hyy⟩ := solid_textCoordinates place margin _ hxy
  have hbase := (((Alike.between hname hdrawn hfont).append (.refl hx.closed)).append
    (.refl hy)).append (.refl hyy.closed)
  rw [← drawn_between_quotes, ← drawn_between_quotes] at hbase
  have halign : Closed (":text_align=" ++ (Word.known alignment).text) := by
    cases alignment <;> decide
  refine .ok ?_
  by_cases hleft : (Word.known alignment : Word Alignment) = .known .left
  · rw [if_pos hleft, if_pos hleft]
    exact hbase
  · rw [if_neg hleft, if_neg hleft]
    have hall := hbase.append (.refl halign)
    simpa only [String.append_assoc] using hall

/-- **Burning subtitles from another file** at the same place. -/
theorem subtitlesText_alike (name name' : String) (place : Word Placement) :
    Alike (subtitlesText (quote name) place) (subtitlesText (quote name') place) := by
  have hname : Closed "subtitles=" := by decide
  have hfile : Alike ("subtitles=" ++ quote name) ("subtitles=" ++ quote name') :=
    (Alike.refl hname).append (.of_mute (mute_quote name) (mute_quote name'))
  unfold subtitlesText
  apply hfile.append
  -- the style behind the name is a number in quotes of its own, or nothing
  apply Alike.refl
  cases place with
  | known p => cases p <;> decide
  | other text => exact rfl

/-- **A text that is drawn** is a filter of that name. -/
theorem titled_drawText (text : String) (place : Word Placement) (alignment : Alignment)
    (margin : Int) : Gives (Titled "drawtext") (drawText text place (.known alignment) margin) := by
  have hname : Titled "drawtext" "drawtext=text=" := ⟨by decide, by decide⟩
  have hfont : Solid ":fontsize=24:fontcolor=white:x=" := by decide
  have hy : Solid ":y=" := by decide
  have halign : Solid (":text_align=" ++ (Word.known alignment).text) := by
    cases alignment <;> decide
  refine .bind fun xy hxy => ?_
  obtain ⟨hx, hyy⟩ := solid_textCoordinates place margin _ hxy
  have hbase := ((((hname.append (.of_mute (mute_drawn text))).append hfont).append hx).append
    hy).append hyy
  refine .ok ?_
  rw [drawn_between_quotes]
  split
  · exact hbase
  · have hall := hbase.append halign
    simpa only [String.append_assoc] using hall

/-- **Subtitles** are a filter of that name. -/
theorem titled_subtitlesText (name : String) (place : Word Placement) :
    Titled "subtitles" (subtitlesText (quote name) place) := by
  have hname : Titled "subtitles" "subtitles=" := ⟨by decide, by decide⟩
  refine (hname.append (.of_mute (mute_quote name))).append ?_
  cases place with
  | known p => cases p <;> decide
  | other text =>
    show Solid ""
    decide

/-- **An image** is a filter that begins with the empty one. -/
theorem named_imageText (name : String) (label : Nat) (place : Word Placement) :
    Gives (Named "null") (imageText (quote name) label place) := by
  have hlabel : Single (toString label) := single_of_numeral (Number.numeral_natToString label)
  have hopen : Single "[base" := by decide
  have hopen' : Single "[ovl" := by decide
  have hshut : Single "]" := by decide
  have hnull : Named "null" "null" := ⟨by decide, by decide⟩
  have hmovie : Single ";movie=" := by decide
  have hnext : Single ";" := by decide
  have hoverlay : Single "overlay=" := by decide
  have hcolon : Single ":" := by decide
  refine .bind fun xy hxy => ?_
  obtain ⟨hx, hy⟩ := solid_imageCoordinates place xy hxy
  have hbase : Single ("[base" ++ toString label ++ "]") := (hopen.append hlabel).append hshut
  have himage : Single ("[ovl" ++ toString label ++ "]") := (hopen'.append hlabel).append hshut
  have hfile := ((((hnull.append hbase).append hmovie).append
    (.of_mute (mute_quote name))).append himage).append hnext
  exact .ok ((((((hfile.append hbase).append himage).append hoverlay).append hx.single).append
    hcolon).append hy.single)

/-- **Laying another image over the picture** at the same place, with the same labels. -/
theorem imageText_agrees (name name' : String) (label : Nat) (place : Word Placement) :
    Agree Alike (imageText (quote name) label place) (imageText (quote name') label place) := by
  have hlabel : Closed (toString label) := closed_of_numeral (Number.numeral_natToString label)
  have hopen : Closed "[base" := by decide
  have hopen' : Closed "[ovl" := by decide
  have hshut : Closed "]" := by decide
  have hnull : Closed "null" := by decide
  have hmovie : Closed ";movie=" := by decide
  have hnext : Closed ";" := by decide
  have hoverlay : Closed "overlay=" := by decide
  have hcolon : Closed ":" := by decide
  refine .bind (.refl (R := fun xy uv => xy = uv) fun _ _ => rfl) ?_
  rintro xy _ hxy - rfl
  obtain ⟨hx, hy⟩ := solid_imageCoordinates place xy hxy
  have hbase : Closed ("[base" ++ toString label ++ "]") := (hopen.append hlabel).append hshut
  have himage : Closed ("[ovl" ++ toString label ++ "]") := (hopen'.append hlabel).append hshut
  have hmiddle := Alike.between ((hnull.append hbase).append hmovie)
    (.of_mute (mute_quote name) (mute_quote name')) himage
  exact .ok (((((((hmiddle.append (.refl hnext)).append (.refl hbase)).append
    (.refl himage)).append (.refl hoverlay)).append (.refl hx.closed)).append
    (.refl hcolon)).append (.refl hy.closed))

end Filter

/-! ## Fragments of commands -/

namespace Command

/-- A caption whose alignment is known to the vocabulary, or any other command. -/
def Aligned : Command → Prop
  | .caption _ _ alignment _ => ∃ a, alignment = .known a
  | _ => True

/-- The file and the place of an image that is laid over the picture. -/
def image? : Command → Option (String × Word Placement)
  | .burn (.known .text) _ _ | .burn (.known .subtitles) _ _ => none
  | .burn _ content place => some (content, place)
  | _ => none

/-- **The names of the filters** that a command is made of, unless it is an image. -/
def filterNames : Command → List String
  | .scale .. => ["scale"]
  | .crop .. | .mergedCrop .. => ["crop", "cropdetect"]
  | .fade .. => ["fade"]
  | .burn (.known .text) _ _ | .caption .. => ["drawtext"]
  | .burn (.known .subtitles) _ _ => ["subtitles"]
  | .deduplicate _ => ["decimate"]
  | _ => []

end Command

namespace Filter

variable {ctx : Context} {n : Nat} {c : Command} {t : String}

/-- **An image** is laid over the picture with the labels of the number that is reached, and
counts. -/
theorem build_image {content : String} {place : Word Placement}
    (h : c.image? = some (content, place)) :
    build ctx n c =
      ⟨fragmentOf (imageText (quote (Text.unquoted content)) n place), [], n + 1⟩ := by
  rcases c with _ | _ | _ | _ | _ | _ | _ | ⟨(_ | _ | _) | _, _, _⟩ | _ | _ | _ | _ | _
  all_goals cases h
  all_goals rfl

/-- **A command that is no image** is not counted. -/
theorem images_build (ctx : Context) (n : Nat) (h : c.image? = none) :
    (build ctx n c).images = n := by
  rcases c with _ | _ | _ | _ | _ | _ | ⟨direction, duration⟩ | ⟨(_ | _ | _) | _, _, _⟩ | _ | _ |
    _ | _ | _
  case fade =>
    rw [build, fadeStep]
    rcases formatNumber duration with f | text
    · rfl
    · simp only
      rcases overrun text duration ctx.duration with f | warnings
      · rfl
      · simp only
        split <;> rfl
  all_goals first | rfl | cases h

theorem parts_of_titled {text : Except Fault String} {names : List String}
    {name : String} (hname : name ∈ names) (htext : Gives (Titled name) text)
    (h : fragmentOf text = .ok (some (.fragment t))) :
    ∃ parts, t = String.intercalate "," parts ∧ ∀ p ∈ parts, ∃ name ∈ names, Titled name p :=
  ⟨[t], (String.intercalate_singleton).symm,
    List.forall_mem_singleton.2 ⟨name, hname, htext t (eq_of_fragmentOf h)⟩⟩

/-- **A fragment that is no image** is made of filters of the names of its command. -/
theorem exists_parts_of_build (hc : c.isPicture = true) (ha : c.Aligned) (hi : c.image? = none)
    (h : (build ctx n c).outcome = .ok (some (.fragment t))) :
    ∃ parts, t = String.intercalate "," parts ∧
      ∀ p ∈ parts, ∃ name ∈ c.filterNames, Titled name p := by
  rcases c with _ | _ | _ | ⟨width, height, aspect⟩ | ⟨size, side⟩ | ⟨m, detect⟩ |
    ⟨direction, duration⟩ | ⟨kind, content, place⟩ | ⟨text, place, alignment, margin⟩ | cycle |
    _ | _ | _
  case scale => exact parts_of_titled (.head _) (titled_scaleText width height aspect) h
  case crop =>
    have htext : cropText size side ctx.descriptor = .ok t := eq_of_fragmentOf h
    rw [cropText] at htext
    refine ⟨[t], (String.intercalate_singleton).symm, List.forall_mem_singleton.2 ?_⟩
    split at htext
    · obtain rfl := Except.ok.inj htext
      exact ⟨"cropdetect", .tail _ (.head _), titled_borderFilter⟩
    · exact ⟨"crop", .head _, titled_filter _ _ t htext⟩
  case mergedCrop =>
    have htext : mergedCropText m detect ctx.descriptor = .ok t := eq_of_fragmentOf h
    have hborder : ∃ name ∈ ["crop", "cropdetect"], Titled name borderFilter :=
      ⟨"cropdetect", .tail _ (.head _), titled_borderFilter⟩
    rw [mergedCropText] at htext
    split at htext
    · obtain rfl := Except.ok.inj htext
      exact ⟨[borderFilter], (String.intercalate_singleton).symm,
        List.forall_mem_singleton.2 hborder⟩
    · rcases hfilter : m.filter ctx.descriptor with f | u
      · rw [hfilter] at htext
        cases htext
      · have hcrop : ∃ name ∈ ["crop", "cropdetect"], Titled name u :=
          ⟨"crop", .head _, titled_filter m _ u hfilter⟩
        rw [hfilter] at htext
        obtain rfl := Except.ok.inj htext
        split
        · exact ⟨[borderFilter, u], rfl,
            List.forall_mem_cons.2 ⟨hborder, List.forall_mem_singleton.2 hcrop⟩⟩
        · exact ⟨[u], (String.intercalate_singleton).symm, List.forall_mem_singleton.2 hcrop⟩
  case fade =>
    obtain ⟨parts, rfl, hparts⟩ := exists_fades h
    exact ⟨parts, rfl, fun p hp => ⟨"fade", .head _, hparts p hp⟩⟩
  case burn =>
    rcases kind with (_ | _ | _) | _
    case known.text => exact parts_of_titled (.head _) (titled_drawText content place .left 0) h
    case known.subtitles =>
      exact parts_of_titled (.head _) (.ok (titled_subtitlesText (Text.unquoted content) place)) h
    all_goals cases hi
  case caption =>
    obtain ⟨a, rfl⟩ := ha
    exact parts_of_titled (.head _) (titled_drawText text place a margin) h
  case deduplicate => exact parts_of_titled (.head _) (titled_deduplicate cycle) h
  all_goals cases hc

/-- **Every fragment** is made of single filters: an image, or filters of the names of its
command. -/
theorem exists_named_of_build (hc : c.isPicture = true) (ha : c.Aligned)
    (h : (build ctx n c).outcome = .ok (some (.fragment t))) :
    ∃ parts, t = String.intercalate "," parts ∧
      ∀ p ∈ parts, ∃ name ∈ "null" :: c.filterNames, Named name p := by
  rcases hi : c.image? with _ | ⟨content, place⟩
  · obtain ⟨parts, rfl, hparts⟩ := exists_parts_of_build hc ha hi h
    refine ⟨parts, rfl, fun p hp => ?_⟩
    obtain ⟨name, hname, htitled⟩ := hparts p hp
    exact ⟨name, List.mem_cons_of_mem _ hname, htitled.named⟩
  · rw [build_image hi] at h
    have hnamed := named_imageText _ n place t (eq_of_fragmentOf h)
    exact ⟨[t], (String.intercalate_singleton).symm,
      List.forall_mem_singleton.2 ⟨"null", List.mem_cons_self, hnamed⟩⟩

/-- **Every fragment is closed.** -/
theorem closed_of_build (hc : c.isPicture = true) (ha : c.Aligned)
    (h : (build ctx n c).outcome = .ok (some (.fragment t))) : Closed t := by
  obtain ⟨parts, rfl, hparts⟩ := exists_named_of_build hc ha h
  refine closed_intercalate fun p hp => ?_
  obtain ⟨_, _, hnamed⟩ := hparts p hp
  exact hnamed.single.closed

/-- The fragments of commands are closed. -/
theorem Builds.closed {cs : List Command} {ts : List String} (h : Builds ctx n cs ts)
    (ha : ∀ c ∈ cs, c.Aligned) : ∀ t ∈ ts, Filter.Closed t := by
  induction h with
  | nil => exact fun t ht => (List.not_mem_nil ht).elim
  | picture hpicture hbuilt _ ih =>
    exact List.forall_mem_cons.2 ⟨closed_of_build hpicture (ha _ List.mem_cons_self) hbuilt,
      ih fun c hc => ha c (List.mem_cons_of_mem _ hc)⟩
  | other _ _ ih => exact ih fun c hc => ha c (List.mem_cons_of_mem _ hc)

end Filter

end ClipScript
