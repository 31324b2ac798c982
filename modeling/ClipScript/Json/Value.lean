/-
# JSON values

Manifests, media facts and requests arrive as JSON. A value keeps what matters
to their readers: whether a number was written as a whole number or with a
fraction or exponent, and the order in which an object lists its members. An
object has each name once; writing a name again replaces the value and keeps the
place.
-/
import ClipScript.Number.Double

set_option autoImplicit false

namespace ClipScript

/-- A JSON value. `whole` and `real` tell apart `1` and `1.0`. -/
inductive Json where
  | null
  | bool (b : Bool)
  | whole (n : Int)
  | real (x : Double)
  | text (s : String)
  | array (items : List Json)
  | object (members : List (String × Json))
deriving Inhabited

namespace Json

/-! ## Kinds -/

/-- The word that messages use for the kind of a value. -/
def kind : Json → String
  | .null => "NoneType"
  | .bool _ => "bool"
  | .whole _ => "int"
  | .real _ => "float"
  | .text _ => "str"
  | .array _ => "list"
  | .object _ => "dict"

/-- **Present:** whether a setting counts as given. Null, false, zero, and the empty text,
array and object do not. -/
def isGiven : Json → Bool
  | .null => false
  | .bool b => b
  | .whole n => n != 0
  | .real .negativeZero => false
  | .real (.finite q) => q.num != 0
  | .real _ => true
  | .text s => !s.isEmpty
  | .array items => !items.isEmpty
  | .object members => !members.isEmpty

/-- Whether a value is null. -/
def isNull : Json → Bool
  | .null => true
  | _ => false

/-- The text of a JSON text. -/
def text? : Json → Option String
  | .text s => some s
  | _ => none

/-- A text, or null for none. -/
def ofText? : Option String → Json
  | none => .null
  | some s => .text s

/-- A whole number, or null for none. -/
def ofInt? : Option Int → Json
  | none => .null
  | some n => .whole n

/-- A double, or null for none. -/
def ofDouble? : Option Double → Json
  | none => .null
  | some x => .real x

@[simp] theorem isGiven_text (s : String) : (Json.text s).isGiven = !s.isEmpty := rfl

/-! ## Members of objects -/

/-- The value under a name. -/
def lookup (name : String) (members : List (String × Json)) : Option Json :=
  (members.find? fun m => m.1 = name).map Prod.snd

/-- The members with a value under a name: in place if the name is there, else at the end. -/
def insert (name : String) (value : Json) : List (String × Json) → List (String × Json)
  | [] => [(name, value)]
  | m :: ms => if m.1 = name then (name, value) :: ms else m :: insert name value ms

/-- An object from members in the order they were written, later ones replacing earlier ones. -/
def ofMembers (members : List (String × Json)) : Json :=
  .object (members.foldl (fun ms m => insert m.1 m.2 ms) [])

/-- The value under a name of an object; null when there is none. -/
def get (members : List (String × Json)) (name : String) : Json :=
  (lookup name members).getD .null

end Json

end ClipScript
