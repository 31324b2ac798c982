/-
# Header values with parameters

A header such as a content type is a value followed by parameters, each after a
semicolon and of the form name `=` text. The text is a token, or anything between
double quotes, where a backslash before a quote or another backslash makes it
ordinary. A parameter that has neither form is passed over.
-/
import ClipScript.Text.Blank

set_option autoImplicit false

namespace ClipScript.Web

/-- **A header value** with its parameters, names in small letters. -/
structure Header where
  value : String
  params : List (String × String)
deriving DecidableEq, Repr

/-- A character of names and tokens: ASCII letters, digits and some signs. -/
def isTokenChar (c : Char) : Bool :=
  c.isAlphanum || "_!#$%&'*+-.^\x60|~".toList.contains c

/-- A text with every occurrence of one text replaced by another, from the left. -/
def replaced (old new : List Char) (cs : List Char) : List Char :=
  match cs with
  | [] => []
  | c :: r =>
    if !old.isEmpty && old.isPrefixOf (c :: r) then
      new ++ replaced old new (r.drop (old.length - 1))
    else c :: replaced old new r
termination_by cs.length
decreasing_by all_goals (simp; try omega)

/-- The text up to an unescaped double quote, and what follows the quote. -/
def quotedPart : List Char → Option (List Char × List Char)
  | [] => none
  | '"' :: cs => some ([], cs)
  | '\\' :: '\\' :: cs => (quotedPart cs).map fun p => ('\\' :: '\\' :: p.1, p.2)
  | '\\' :: '"' :: cs => (quotedPart cs).map fun p => ('\\' :: '"' :: p.1, p.2)
  | c :: cs => (quotedPart cs).map fun p => (c :: p.1, p.2)

/-- The text that stands between double quotes. -/
def unescaped (cs : List Char) : List Char :=
  replaced ['%', '2', '2'] ['"'] (replaced ['\\', '"'] ['"'] (replaced ['\\', '\\'] ['\\'] cs))

/-- The parameter at the front of a text, and what follows it. -/
def firstParam (cs : List Char) : Option (String × String) × List Char :=
  let name := cs.takeWhile isTokenChar
  match cs.drop name.length with
  | '=' :: rest =>
    if name.isEmpty then (none, cs)
    else
      let key := String.ofList (name.map Char.toLower)
      let token := rest.takeWhile isTokenChar
      if !token.isEmpty then (some (key, String.ofList token), rest)
      else
        match rest with
        | '"' :: quoted =>
          match quotedPart quoted with
          | some (text, after) => (some (key, String.ofList (unescaped text)), after)
          | none => (none, rest)
        | _ => (none, rest)
  | _ => (none, cs)

/-- The parameters of a text, at most as many as `fuel`. -/
def paramsFrom : Nat → List Char → List (String × String)
  | 0, _ => []
  | fuel + 1, cs =>
    let (param, rest) := firstParam cs
    let later :=
      match rest.dropWhile (· != ';') with
      | _ :: next => paramsFrom fuel (next.dropWhile Text.isBlank)
      | [] => []
    param.toList ++ later

namespace Header

/-- **Reading a header value.** There are no more parameters than semicolons. -/
def ofText (s : String) : Header :=
  let value := s.toList.takeWhile (· != ';')
  let rest := Text.strip Text.isBlank (s.toList.drop (value.length + 1))
  let value := Text.strip Text.isBlank value
  ⟨String.ofList value,
    if value.isEmpty || rest.isEmpty then [] else paramsFrom s.length rest⟩

/-- The text of a parameter; the last one counts. -/
def param? (h : Header) (name : String) : Option String :=
  (h.params.reverse.find? fun p => p.1 = name).map Prod.snd

/-- The value in small letters. -/
def kind (h : Header) : String := String.ofList (h.value.toList.map Char.toLower)

/-- Whether this is a content type of JSON. -/
def isJson (h : Header) : Bool :=
  h.kind = "application/json" ||
    ("application/".toList.isPrefixOf h.kind.toList && "+json".toList.isSuffixOf h.kind.toList)

end Header

end ClipScript.Web
