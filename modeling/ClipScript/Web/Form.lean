/-
# Uploaded forms

A form with files is a text in parts. A line of two dashes and the form's boundary
stands before each part, and one with two more dashes after the last. A part has
header lines, an empty line and its content; its disposition names the field and,
for a file, the file. Lines end in `\r\n`, `\n` or `\r`.

A form that breaks these rules anywhere has no parts at all.
-/
import ClipScript.Web.Header

set_option autoImplicit false

namespace ClipScript.Web

/-- A file of a form: the field and the file's name. -/
structure FormFile where
  field : Option String
  filename : String
deriving DecidableEq, Repr

/-! ## Lines -/

/-- What follows a line end at the front of a text. -/
def afterLineEnd? : List Char → Option (List Char)
  | '\r' :: '\n' :: cs => some cs
  | '\r' :: cs => some cs
  | '\n' :: cs => some cs
  | _ => none

/-- A blank within a line. -/
def isLineBlank (c : Char) : Bool := c = ' ' || c = '\t' || c = '\x0b' || c = '\x0c'

/-- The lines of a text. -/
def linesOf : List Char → List Char → List (List Char)
  | line, [] => [line.reverse]
  | line, '\r' :: '\n' :: cs => line.reverse :: linesOf [] cs
  | line, '\r' :: cs => line.reverse :: linesOf [] cs
  | line, '\n' :: cs => line.reverse :: linesOf [] cs
  | line, c :: cs => linesOf (c :: line) cs

/-- A text in which lines that start with a blank go on from the line before. -/
def unfolded : List Char → List Char
  | '\r' :: '\n' :: c :: cs =>
    if c = ' ' ∨ c = '\t' then ' ' :: unfolded cs else '\r' :: '\n' :: unfolded (c :: cs)
  | '\r' :: c :: cs =>
    if c = ' ' ∨ c = '\t' then ' ' :: unfolded cs else '\r' :: unfolded (c :: cs)
  | '\n' :: c :: cs =>
    if c = ' ' ∨ c = '\t' then ' ' :: unfolded cs else '\n' :: unfolded (c :: cs)
  | c :: cs => c :: unfolded cs
  | [] => []

/-! ## Boundaries -/

/-- A boundary line at the front of a text: whether it is the last one, and what follows. -/
def boundaryLine? (boundary : List Char) (cs : List Char) : Option (Bool × List Char) :=
  let mark := '-' :: '-' :: boundary
  if mark.isPrefixOf cs then
    match cs.drop mark.length with
    | '-' :: '-' :: rest =>
      let rest := rest.dropWhile isLineBlank
      some (true, (afterLineEnd? rest).getD rest)
    | rest => (afterLineEnd? (rest.dropWhile isLineBlank)).map fun r => (false, r)
  else none

/-- The first boundary line after a line end. -/
def nextBoundary? (boundary : List Char) : List Char → Option (Bool × List Char)
  | [] => none
  | c :: cs =>
    match (afterLineEnd? (c :: cs)).bind (boundaryLine? boundary) with
    | some found => some found
    | none => nextBoundary? boundary cs

/-- The first boundary line, after a line end or not. -/
def firstBoundary? (boundary : List Char) : List Char → Option (Bool × List Char)
  | [] => none
  | c :: cs =>
    match boundaryLine? boundary (c :: cs) with
    | some found => some found
    | none => firstBoundary? boundary cs

/-! ## Parts -/

/-- The header lines of a part, and its content with the line end before it. -/
def splitPart? : List Char → Option (List Char × List Char)
  | [] => none
  | '\r' :: '\n' :: '\r' :: '\n' :: cs => some ([], '\r' :: '\n' :: cs)
  | '\r' :: '\r' :: cs => some ([], '\r' :: cs)
  | '\n' :: '\n' :: cs => some ([], '\n' :: cs)
  | c :: cs => (splitPart? cs).map fun p => (c :: p.1, p.2)

/-- The value of a header line. -/
def headerValue? (name : String) (headers : List Char) : Option String :=
  (linesOf [] (unfolded headers)).findSome? fun line =>
    let line := Text.strip Text.isBlank line
    let key := line.takeWhile (· != ':')
    if String.ofList ((Text.strip Text.isBlank key).map Char.toLower) = name then
      some (String.ofList (Text.strip Text.isBlank (line.drop (key.length + 1))))
    else none

/-- The file of a part with some header lines, if it is one; a part has to have a disposition. -/
def partFile (headers : List Char) : Option (List FormFile) :=
  (headerValue? "content-disposition" headers).map fun value =>
    let disposition := Header.ofText value
    match disposition.param? "filename" with
    | some filename => [⟨disposition.param? "name", filename⟩]
    | none => []

/-- The files of the parts from here on, in a text with at most `fuel` parts. -/
def partFiles (boundary : List Char) : Nat → List Char → Option (List FormFile)
  | 0, _ => none
  | fuel + 1, cs => do
    let (headers, content) ← splitPart? cs
    let file ← partFile headers
    let (last, rest) ← nextBoundary? boundary content
    if last then return file else return file ++ (← partFiles boundary fuel rest)

/-- A character of ASCII. -/
def isAscii (c : Char) : Bool := c.toNat < 128

/-- **The files of a form.** A boundary is written in ASCII. -/
def formFiles (contentType : Header) (body : String) : List FormFile :=
  let boundary := ((contentType.param? "boundary").getD "").toList
  if contentType.kind ≠ "multipart/form-data" || boundary.isEmpty || !boundary.all isAscii then []
  else
    match firstBoundary? boundary body.toList with
    | some (false, rest) => (partFiles boundary (body.length + 1) rest).getD []
    | _ => []

/-! ## Writing -/

/-- **A form with one file.** -/
def writeForm (boundary field filename content : String) : String :=
  "\r\n--" ++ boundary ++ "\r\nContent-Disposition: form-data; name=\"" ++ field ++
    "\"; filename=\"" ++ filename ++ "\"\r\n\r\n" ++ content ++ "\r\n--" ++ boundary ++ "--\r\n"

end ClipScript.Web
