/-
# Patterns of directives

A pattern says what a directive looks like: its keyword, and *slots* for the
tokens after it. A slot has a position counted from the keyword, the shape that
its token must have, and a name if the token is a parameter. A shape is any test
of a text; the ones that the language needs are defined below. A slot may be
optional; optional slots of one group are there together or not at all, and one
that is not there gives its parameter a fallback.

A pattern also says what has to hold of the parameters beyond their shapes, and
what is made of them. Both may fail with a `Fault`: they read numbers out of
parameters, and a pattern can be wrong about the parameters it binds.

Patterns are looked up by keyword in a registry, in which no keyword occurs twice.
-/
import ClipScript.Sorting
import ClipScript.Number.Reading

set_option autoImplicit false

namespace ClipScript

open Text

/-! ## Letters and endings -/

/-- Whether a character is a given small letter, in any case. The letters `i`, `s` and `k`
have variants outside ASCII. -/
def isLetter (letter c : Char) : Bool :=
  c = letter || c.toLower = letter ||
    (letter = 'i' && (c = '\u0130' || c = '\u0131')) ||
    (letter = 's' && c = '\u017F') ||
    (letter = 'k' && c = '\u212A')

/-- Whether a text begins with some small letters, in any case. -/
def startsWithLetters : List Char → List Char → Bool
  | [], _ => true
  | _ :: _, [] => false
  | l :: ls, c :: cs => isLetter l c && startsWithLetters ls cs

/-- Whether a text ends with some small letters, in any case. -/
def endsWithLetters (letters cs : List Char) : Bool :=
  startsWithLetters letters.reverse cs.reverse

/-- A text without a quote at its start. -/
def dropOpening : List Char → List Char
  | '"' :: cs => cs
  | cs => cs

/-- A text without a quote at its end. -/
def dropClosing (cs : List Char) : List Char := (dropOpening cs.reverse).reverse

/-- A text without an ending, if it has it. -/
def withoutEnd (ending : String) (s : String) : String :=
  let cs := s.toList
  if ending.toList.isSuffixOf cs then String.ofList (cs.take (cs.length - ending.length)) else s

/-! ## Shapes -/

/-- **The shape of a token:** whether a token has it. -/
structure Shape where
  accepts : String → Bool

namespace Shape

/-- Any token. -/
def anything : Shape := ⟨fun _ => true⟩

/-- One word. -/
def exactly (word : String) : Shape := ⟨fun token => token = word⟩

/-- One of some words. -/
def oneOf (words : List String) : Shape := ⟨fun token => words.contains token⟩

/-- Any token without a line feed. -/
def line : Shape := ⟨fun token => !token.toList.isEmpty && !token.toList.contains '\n'⟩

/-- A quoted text without a line feed. -/
def quotedLine : Shape where
  accepts token :=
    let cs := token.toList
    2 ≤ cs.length && cs.head? = some '"' && cs.getLast? = some '"' && !cs.contains '\n'

/-- Digits. -/
def digits : Shape := ⟨fun token => isDigits token.toList⟩

/-- Digits and then exactly the given rest. -/
def isDigitsThen (rest cs : List Char) : Bool :=
  isDigits (cs.takeWhile isDigit) && cs.dropWhile isDigit == rest

/-- Digits and `px`. -/
def pixels : Shape := ⟨fun token => isDigitsThen ['p', 'x'] token.toList⟩

/-- Digits, `x`, digits. -/
def dimensions : Shape where
  accepts token :=
    let cs := token.toList
    isDigits (cs.takeWhile isDigit) &&
      match cs.dropWhile isDigit with
      | 'x' :: height => isDigits height
      | _ => false

/-- Digits, a fraction if need be, and `s`. -/
def seconds : Shape where
  accepts token :=
    let cs := token.toList
    isDigits (cs.takeWhile isDigit) &&
      match cs.dropWhile isDigit with
      | '.' :: rest => isDigitsThen ['s'] rest
      | rest => rest == ['s']

/-- `/`, or a file name with one of some endings, in quotes or not. -/
def mediaFile (endings : List String) : Shape where
  accepts token :=
    let cs := token.toList
    cs = ['/'] ||
      let name := dropClosing (dropOpening cs)
      !name.contains '"' && endings.any fun e => endsWithLetters ('.' :: e.toList) name

end Shape

/-! ## Parameters -/

/-- The parameters bound so far. A parameter of an absent slot without fallback has no text. -/
abbrev Bindings := List (String × Option String)

namespace Bindings

/-- Bind a name, anew if it was bound. -/
def bind (name : String) (value : Option String) : Bindings → Bindings
  | [] => [(name, value)]
  | b :: bs => if b.1 = name then (name, value) :: bs else b :: bind name value bs

/-- Bind a name if there is one. -/
def bind? (name : Option String) (value : Option String) (bs : Bindings) : Bindings :=
  match name with
  | some n => bs.bind n value
  | none => bs

/-- The text bound to a name. -/
def text (bs : Bindings) (name : String) : Except Fault String :=
  match bs.find? fun b => b.1 = name with
  | some (_, some s) => .ok s
  | _ => .error (.unbound name)

end Bindings

/-! ## Patterns -/

/-- **A slot** for one token of a directive. -/
structure Slot where
  position : Nat
  shape : Shape
  name : Option String := none
  optional : Bool := false
  fallback : Option String := none
  group : Option String := none

/-- The parameter that a slot binds; an empty name is none. -/
def Slot.parameter? (s : Slot) : Option String := s.name.filter fun n => !n.isEmpty

/-- Whether the parameters of a directive will do; if not, perhaps why. -/
inductive Verdict where
  | accepted
  | refused (detail : Option String)
deriving DecidableEq, Repr

/-- **A pattern** of directives that make an `α`. -/
structure Pattern (α : Type) where
  name : String
  slots : List Slot
  validate : Bindings → Except Fault Verdict := fun _ => .ok .accepted
  create : Bindings → Except Fault α

namespace Pattern

variable {α : Type}

/-- The largest position of a slot, or zero. -/
def lastPosition (slots : List Slot) : Nat := slots.foldl (fun n s => max n s.position) 0

/-- The number of tokens after the keyword that a directive can have. -/
def reach (p : Pattern α) : Nat := lastPosition p.slots

/-- The position of the last token that a directive must have. -/
def required (p : Pattern α) : Nat := lastPosition (p.slots.filter fun s => !s.optional)

/-- The slots in order of position. -/
def ordered (p : Pattern α) : List Slot := sortByKey (fun s => s.position) p.slots

end Pattern

/-! ## Registries -/

/-- **A registry:** patterns by their keywords, and what a comment becomes. -/
structure Registry (α : Type) where
  patterns : List (Pattern α)
  ofComment : String → α

namespace Registry

variable {α : Type}

/-- The pattern of a keyword. -/
def find? (r : Registry α) (keyword : String) : Option (Pattern α) :=
  r.patterns.find? fun p => p.name = keyword

/-- Whether a text is a keyword. -/
def hasKeyword (r : Registry α) (text : String) : Bool := (r.find? text).isSome

/-- The first name that occurs twice in a list, if any does. -/
def repeated? : List String → List String → Option String
  | _, [] => none
  | seen, n :: ns => if seen.contains n then some n else repeated? (n :: seen) ns

/-- A registry of patterns with different names. -/
def ofPatterns (patterns : List (Pattern α)) (ofComment : String → α) :
    Except Fault (Registry α) :=
  match repeated? [] (patterns.map (·.name)) with
  | some name => .error (.duplicatePattern name)
  | none => .ok ⟨patterns, ofComment⟩

end Registry

end ClipScript
