/-
# Cropping

Crops take pixels from the edges of the frame, so several of them amount to one:
the pixels of each edge add up. When a script crops more than once, the crops are
merged into one that comes before everything else; a crop of zero pixels asks for
the borders to be detected, and the merged crop remembers that one of them did.

When the frame is known, the crops have to leave something of it. Otherwise the
size that remains is left as an expression for the filter to evaluate.
-/
import ClipScript.Command
import ClipScript.Descriptor

set_option autoImplicit false

namespace ClipScript

open Number

/-! ## Margins -/

namespace Side

/-- The sides that take from the left edge. -/
def takesLeft : Side → Bool
  | .left | .width | .each => true
  | _ => false

/-- The sides that take from the right edge. -/
def takesRight : Side → Bool
  | .right | .width | .each => true
  | _ => false

/-- The sides that take from the top edge. -/
def takesTop : Side → Bool
  | .top | .height | .each => true
  | _ => false

/-- The sides that take from the bottom edge. -/
def takesBottom : Side → Bool
  | .bottom | .height | .each => true
  | _ => false

end Side

/-- The margins of one crop; a side outside the vocabulary takes nothing. -/
def Margins.ofCrop (size : Int) : Word Side → Margins
  | .known side =>
    { left := if side.takesLeft then size else 0
      right := if side.takesRight then size else 0
      top := if side.takesTop then size else 0
      bottom := if side.takesBottom then size else 0 }
  | .other _ => .zero

/-- **The margins of several crops:** the sum for each edge. -/
def Margins.total (crops : List (Int × Word Side)) : Margins :=
  crops.foldl (fun m c => m.add (.ofCrop c.1 c.2)) .zero

/-! ## Bounds -/

/-- A fault that mentions some numbers, or the fault that one of them is too long to write. -/
def faultWith (numbers : List Int) (fault : Fault) : Fault :=
  match numbers.mapM writeInt with
  | .ok _ => fault
  | .error f => f

/-- **Bounds:** the margins leave something of the frame, if it is known. -/
def Margins.checkBounds (m : Margins) (d : Option Descriptor) : Except Fault Unit :=
  match d.bind Descriptor.frame? with
  | none => .ok ()
  | some (width, height) =>
    if width ≤ m.horizontal then
      .error (faultWith [m.left, m.right, m.horizontal, width]
        (.cropTooWide m.left m.right width))
    else if height ≤ m.vertical then
      .error (faultWith [m.top, m.bottom, m.vertical, height]
        (.cropTooTall m.top m.bottom height))
    else .ok ()

/-! ## The filter -/

/-- What detecting borders is done with. -/
def borderFilter : String := "cropdetect=24:16:0"

/-- One dimension that remains of a frame of unknown size. -/
def remaining (dimension : String) (taken : Int) : Except Fault String := do
  if taken = 0 then return dimension
  else return dimension ++ "-" ++ (← writeInt taken)

/-- **The crop filter** for some margins: width, height, and the corner to keep. -/
def Margins.filter (m : Margins) (d : Option Descriptor) : Except Fault String := do
  m.checkBounds d
  let (width, height) ←
    match d.bind Descriptor.frame? with
    | some (width, height) => do
      pure (← writeInt (width - m.horizontal), ← writeInt (height - m.vertical))
    | none => do pure (← remaining "iw" m.horizontal, ← remaining "ih" m.vertical)
  return "crop=" ++ width ++ ":" ++ height ++ ":" ++ (← writeInt m.left) ++ ":" ++
    (← writeInt m.top)

/-! ## Merging -/

/-- The crops among some commands. -/
def crops (commands : List Command) : List (Int × Word Side) := commands.filterMap Command.crop?

/-- **Merging crops:** two or more crops become one in front of the other commands. -/
def mergeCrops (commands : List Command) (d : Option Descriptor) :
    Except Fault (List Command) :=
  let found := crops commands
  if found.length < 2 then .ok commands
  else do
    let total := Margins.total found
    total.checkBounds d
    return .mergedCrop total (found.any fun c => c.1 == 0) ::
      commands.filter fun c => c.crop?.isNone

end ClipScript
