/-
# Closed vocabularies

Many parameters of a directive are one word out of a few: the side to crop, the
direction of a fade, the place of a text. Each such vocabulary is a type, and its
spellings are given once, here used both for recognising a word in a script and
for writing it.

A command can also be made by hand, with a word that no directive would accept.
`Word` keeps such a word as it is, so that what is done with it is explicit.
-/

set_option autoImplicit false

namespace ClipScript

/-- A closed vocabulary: its members, in the order in which they are listed, and the spelling
of each. -/
class Vocabulary (α : Type) where
  members : List α
  spelling : α → String

/-- The spellings of a vocabulary. -/
def wordsOf (α : Type) [Vocabulary α] : List String :=
  (Vocabulary.members (α := α)).map Vocabulary.spelling

/-- A word of a vocabulary, or another one. -/
inductive Word (α : Type) where
  | known (a : α)
  | other (text : String)
deriving DecidableEq, Repr

namespace Word

variable {α : Type} [Vocabulary α]

/-- The word that a text spells. -/
def ofText (s : String) : Word α :=
  match Vocabulary.members.find? fun a : α => Vocabulary.spelling a = s with
  | some a => .known a
  | none => .other s

/-- The spelling of a word. -/
def text : Word α → String
  | known a => Vocabulary.spelling a
  | other s => s

/-- The word of a text spells that text. -/
@[simp] theorem text_ofText (s : String) : (ofText s : Word α).text = s := by
  unfold ofText
  split
  · next a h => simpa [text] using List.find?_some h
  · rfl

end Word

/-! ## The vocabularies -/

/-- The sides that a crop takes from: one edge, two opposite ones, or all. -/
inductive Side where
  | top | bottom | left | right | width | height | each
deriving DecidableEq, Repr

instance : Vocabulary Side where
  members := [.top, .bottom, .left, .right, .width, .height, .each]
  spelling
    | .top => "top" | .bottom => "bottom" | .left => "left" | .right => "right"
    | .width => "width" | .height => "height" | .each => "each"

/-- The direction of a fade. -/
inductive FadeDirection where
  | fadeIn | fadeOut | both
deriving DecidableEq, Repr

instance : Vocabulary FadeDirection where
  members := [.fadeIn, .fadeOut, .both]
  spelling
    | .fadeIn => "in" | .fadeOut => "out" | .both => "in/out"

/-- What is burned into the picture. -/
inductive BurnKind where
  | text | image | subtitles
deriving DecidableEq, Repr

instance : Vocabulary BurnKind where
  members := [.text, .image, .subtitles]
  spelling
    | .text => "text" | .image => "image" | .subtitles => "subtitles"

/-- The alignment of the lines of a text. -/
inductive Alignment where
  | left | center | right
deriving DecidableEq, Repr

instance : Vocabulary Alignment where
  members := [.left, .center, .right]
  spelling
    | .left => "left" | .center => "center" | .right => "right"

/-- What scaling does with the ratio of width and height. -/
inductive Aspect where
  | preserve | ignore
deriving DecidableEq, Repr

instance : Vocabulary Aspect where
  members := [.preserve, .ignore]
  spelling
    | .preserve => "preserve" | .ignore => "ignore"

/-- The stream that is compressed. -/
inductive Stream where
  | video | audio
deriving DecidableEq, Repr

instance : Vocabulary Stream where
  members := [.video, .audio]
  spelling
    | .video => "video" | .audio => "audio"

/-- A place in the frame. -/
inductive Placement where
  | topLeft | topRight | bottomLeft | bottomRight | center | left | right | top | bottom | default
deriving DecidableEq, Repr

instance : Vocabulary Placement where
  members := [.topLeft, .topRight, .bottomLeft, .bottomRight, .center,
    .left, .right, .top, .bottom, .default]
  spelling
    | .topLeft => "top-left" | .topRight => "top-right"
    | .bottomLeft => "bottom-left" | .bottomRight => "bottom-right"
    | .center => "center" | .left => "left" | .right => "right"
    | .top => "top" | .bottom => "bottom" | .default => "default"

/-- The places that a text may be put at: the corners and the center. -/
def cornerWords : List String :=
  [.topLeft, .topRight, .bottomLeft, .bottomRight, .center].map
    (Vocabulary.spelling : Placement → String)

end ClipScript
