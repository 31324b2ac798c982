/-
# Places in the frame

A text or an image is placed by expressions in the size of the frame and its own
size. A place is a pair of bands, one across and one down: near the first edge,
near the second, or in the middle. The same bands serve for texts and for images;
only the names of the sizes differ, and where the default place is.
-/
import ClipScript.Number.Reading
import ClipScript.Vocabulary

set_option autoImplicit false

namespace ClipScript.Filter

/-- Where something is along one direction. -/
inductive Band where
  | first
  | middle
  | last
deriving DecidableEq, Repr

/-- The bands of a place, across and down; `fallback` is the default place. -/
def bands (fallback : Band × Band) : Placement → Band × Band
  | .topLeft => (.first, .first)
  | .topRight => (.last, .first)
  | .bottomLeft => (.first, .last)
  | .bottomRight => (.last, .last)
  | .center => (.middle, .middle)
  | .left => (.first, .middle)
  | .right => (.last, .middle)
  | .top => (.middle, .first)
  | .bottom => (.middle, .last)
  | .default => fallback

/-- The names of two sizes: that of the frame, and that of what is placed in it. -/
structure Sizes where
  frame : String
  own : String

/-- The coordinate of a band, with some padding at the edges. -/
def Band.coordinate (sizes : Sizes) (padding : String) : Band → String
  | first => padding
  | middle => "(" ++ sizes.frame ++ "-" ++ sizes.own ++ ")/2"
  | last => sizes.frame ++ "-" ++ sizes.own ++ "-" ++ padding

/-- The padding at the edges of the frame. -/
def edgePadding : Int := 10

/-- **The coordinates of a text** with some margin besides the padding. -/
def textCoordinates (place : Word Placement) (margin : Int) : Except Fault (String × String) := do
  let padding ← Number.writeInt (edgePadding + margin)
  match place with
  | .known p =>
    let b := bands (.middle, .last) p
    return (b.1.coordinate ⟨"w", "text_w"⟩ padding, b.2.coordinate ⟨"h", "text_h"⟩ padding)
  | .other _ => .error .unknownPlacement

/-- **The coordinates of an image.** -/
def imageCoordinates (place : Word Placement) : Except Fault (String × String) :=
  match place with
  | .known p =>
    let b := bands (.first, .first) p
    let padding := toString edgePadding
    .ok (b.1.coordinate ⟨"W", "w"⟩ padding, b.2.coordinate ⟨"H", "h"⟩ padding)
  | .other _ => .error .unknownPlacement

/-- The place of subtitles on the numeric keypad; the default place has none. -/
def keypad? : Word Placement → Option Nat
  | .known .bottomLeft => some 1
  | .known .bottom => some 2
  | .known .bottomRight => some 3
  | .known .left => some 4
  | .known .center => some 5
  | .known .right => some 6
  | .known .topLeft => some 7
  | .known .top => some 8
  | .known .topRight => some 9
  | .known .default | .other _ => none

end ClipScript.Filter
