/-
# What can go wrong

Every way in which an operation can fail is one constructor of `Fault`, named for
its cause and carrying what its message mentions. Directives that cannot be
understood are not faults: they are diagnostics of the script, and compiling goes
on. The wording is in `Fault.message` alone.

`Fault.Family` groups the causes by what a caller can do about them. The command
line and the web interface report the faults of a *bad value* and let the others
through; crops that do not fit the frame have a family of their own inside that
group, since they are reported differently.
-/
import ClipScript.Json.Value
import ClipScript.Text.Literal

set_option autoImplicit false

namespace ClipScript

/-- The causes of failure. -/
inductive Fault where
  /-- A text is not a whole number. -/
  | notInteger (text : String)
  /-- A text is not a number. -/
  | notDecimal (text : String)
  /-- A numeral has more digits than are read. -/
  | tooManyDigits (digits : Nat)
  /-- A number has more digits than are written. -/
  | numeralTooLong
  /-- The undefined double was used as a whole number. -/
  | undefinedInteger
  /-- An infinite double was used as a whole number. -/
  | infiniteInteger
  /-- A number too large for a double. -/
  | beyondDouble
  /-- A value of this kind was used as a whole number. -/
  | integerFrom (kind : String)
  /-- A value of this kind was used as a number. -/
  | decimalFrom (kind : String)
  /-- A text is not JSON. -/
  | badJson (what : String) (line column position : Nat)
  /-- JSON is nested too deeply, at a container of this kind. -/
  | tooDeep (container : String)
  /-- Bytes are not UTF-8: the first one of a bad group, its place and the group's length. -/
  | badUtf8 (byte position length : Nat) (reason : String)
  /-- A path, or a word for a program, holds a null character. -/
  | nullInPath
  /-- No file at a path. -/
  | noFile
  /-- A folder where a file was expected. -/
  | isFolder
  /-- A file where a folder was expected. -/
  | notFolder
  /-- A file name longer than file systems allow. -/
  | nameTooLong
  /-- A word longer than can be passed on to a program. -/
  | wordTooLong
  /-- Media facts must be an object. -/
  | descriptorKind (kind : String)
  /-- The codecs among the media facts must be an object. -/
  | codecsKind (kind : String)
  /-- A resolution is not of the form width, `x`, height. -/
  | badResolution (text : String)
  /-- A resolution has a dimension that is not positive. -/
  | emptyResolution (text : String)
  /-- Left and right crops leave nothing of the width. -/
  | cropTooWide (left right width : Int)
  /-- Top and bottom crops leave nothing of the height. -/
  | cropTooTall (top bottom height : Int)
  /-- No coordinates for a placement. -/
  | unknownPlacement
  /-- A filter argument without a fragment. -/
  | noFragment
  /-- No token at a position. -/
  | noToken
  /-- A directive reads a parameter that its pattern does not bind. -/
  | unbound (name : String)
  /-- Two patterns of a registry have one name. -/
  | duplicatePattern (name : String)
  /-- A value of another kind stands where one with members or a text is needed. -/
  | wrongShape
  /-- A value of another kind stands where a text or collection is needed. -/
  | wrongKind
  /-- An object lacks a required member. -/
  | missingMember
  /-- A manifest names no script. -/
  | noScriptField
  /-- A manifest has neither a script nor a path to one. -/
  | noScript
  /-- A media file has neither a video nor an audio stream. -/
  | noMediaStream (filename : String)
  /-- The prober is not installed. -/
  | proberMissing
  /-- The prober ended with an error. -/
  | proberFailed (status : Int) (report : String)
deriving DecidableEq, Inhabited

namespace Fault

/-! ## Messages -/

/-- The start of a long literal, as far as a message shows it. -/
def shortLiteral (s : String) : String := String.ofList ((Text.literal s).toList.take 200)

/-- A number of bytes below 256 in hexadecimal, with two digits. -/
def hexByte (b : Nat) : String := "0x" ++ String.ofList (Text.hexDigits 2 b)

/-- **The wording** of a fault. -/
def message : Fault → String
  | notInteger s => "invalid literal for int() with base 10: " ++ shortLiteral s
  | notDecimal s => "could not convert string to float: " ++ Text.literal s
  | tooManyDigits n =>
    "Exceeds the limit (4300 digits) for integer string conversion: value has " ++ toString n ++
      " digits; use sys.set_int_max_str_digits() to increase the limit"
  | numeralTooLong =>
    "Exceeds the limit (4300 digits) for integer string conversion; " ++
      "use sys.set_int_max_str_digits() to increase the limit"
  | undefinedInteger => "cannot convert float NaN to integer"
  | infiniteInteger => "cannot convert float infinity to integer"
  | beyondDouble => "int too large to convert to float"
  | integerFrom kind =>
    "int() argument must be a string, a bytes-like object or a real number, not '" ++ kind ++ "'"
  | decimalFrom kind => "float() argument must be a string or a real number, not '" ++ kind ++ "'"
  | badJson what line column position =>
    what ++ ": line " ++ toString line ++ " column " ++ toString column ++
      " (char " ++ toString position ++ ")"
  | tooDeep container =>
    "maximum recursion depth exceeded while decoding a JSON " ++ container ++
      " from a unicode string"
  | badUtf8 byte position length reason =>
    if length ≤ 1 then
      "'utf-8' codec can't decode byte " ++ hexByte byte ++ " in position " ++
        toString position ++ ": " ++ reason
    else
      "'utf-8' codec can't decode bytes in position " ++ toString position ++ "-" ++
        toString (position + length - 1) ++ ": " ++ reason
  | nullInPath => "embedded null byte"
  | noFile => "No such file or directory"
  | isFolder => "Is a directory"
  | notFolder => "Not a directory"
  | nameTooLong => "File name too long"
  | wordTooLong => "Argument list too long"
  | descriptorKind kind => "Descriptor must be an object, got " ++ kind
  | codecsKind kind => "Descriptor codecs must be an object, got " ++ kind
  | badResolution s => "Invalid resolution " ++ Text.literal s ++ ", expected WxH"
  | emptyResolution s => "Invalid resolution " ++ Text.literal s ++ ", dimensions must be positive"
  | cropTooWide left right width =>
    "Crop too wide: left " ++ toString left ++ "px + right " ++ toString right ++ "px = " ++
      toString (left + right) ++ "px, video width is " ++ toString width ++ "px"
  | cropTooTall top bottom height =>
    "Crop too tall: top " ++ toString top ++ "px + bottom " ++ toString bottom ++ "px = " ++
      toString (top + bottom) ++ "px, video height is " ++ toString height ++ "px"
  | unknownPlacement => "unknown position"
  | noFragment => "filter argument without a fragment"
  | noToken => "no token at this position"
  | unbound name => "no parameter " ++ name
  | duplicatePattern name => "Duplicate command pattern: " ++ name
  | wrongShape => "value of the wrong shape"
  | wrongKind => "value of the wrong kind"
  | missingMember => "missing member"
  | noScriptField => "Manifest must contain a 'script' or 'script_path' field"
  | noScript => "Manifest has neither 'script' nor 'script_path'"
  | noMediaStream filename => "No video or audio stream found in " ++ filename
  | proberMissing => "ffprobe not found on PATH"
  | proberFailed _ report => report

/-! ## Families -/

/-- What a caller can tell about a fault. -/
inductive Family where
  | badValue
  | badJson
  | tooDeep
  | badUtf8
  | cropBounds
  | noMediaStream
  | wrongKind
  | wrongShape
  | missing
  | outOfRange
  | overflow
  | noFile
  | isFolder
  | notFolder
  | fileSystem
  | proberMissing
  | proberFailed
deriving DecidableEq, Repr

/-- The family of each cause. -/
def family : Fault → Family
  | notInteger _ | notDecimal _ | tooManyDigits _ | numeralTooLong | undefinedInteger
  | nullInPath | descriptorKind _ | codecsKind _ | badResolution _ | emptyResolution _
  | duplicatePattern _ | noScriptField | noScript => .badValue
  | infiniteInteger | beyondDouble => .overflow
  | integerFrom _ | decimalFrom _ | wrongKind => .wrongKind
  | badJson .. => .badJson
  | tooDeep _ => .tooDeep
  | badUtf8 .. => .badUtf8
  | noFile => .noFile
  | isFolder => .isFolder
  | notFolder => .notFolder
  | nameTooLong | wordTooLong => .fileSystem
  | cropTooWide .. | cropTooTall .. => .cropBounds
  | unknownPlacement | unbound _ | missingMember => .missing
  | noFragment | noToken => .outOfRange
  | wrongShape => .wrongShape
  | noMediaStream _ => .noMediaStream
  | proberMissing => .proberMissing
  | proberFailed .. => .proberFailed

/-- The families of faults that lie in a value given by the user, and have a message. -/
def Family.isValue : Family → Bool
  | .badValue | .badJson | .badUtf8 | .cropBounds | .noMediaStream => true
  | _ => false

/-- **Value fault:** a value of the right kind that cannot be used. -/
def isValue (f : Fault) : Bool := f.family.isValue

/-- **Crop fault:** the crops do not fit the frame. -/
def isCropBounds (f : Fault) : Bool := f.family = .cropBounds

/-- A value of the wrong kind. -/
def isWrongKind (f : Fault) : Bool := f.family = .wrongKind

end Fault

end ClipScript
