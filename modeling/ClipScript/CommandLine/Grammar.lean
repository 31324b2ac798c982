/-
# Reading a command line

A command line is a list of words. Its grammar has *options*, which start with a
dash and may take a value, and at most one *positional* argument. The words are
first sorted: an option, a plain word, or the separator `--`, after which every
word is plain. Then they are taken from left to right.

An option can be written in several ways: by a long name, by a long name cut short
as long as only one option is meant, by a short name; with its value after `=`,
as the next word, or joined to a short name; and short options without values can
be joined to each other. A word with a dash is plain all the same if it is a
single dash, a negative number or, when no option is meant, holds a space.

Reading stops at the first thing that is wrong, or where help is asked for.
-/
import ClipScript.Number.Reading

set_option autoImplicit false

namespace ClipScript.CommandLine

/-! ## Grammars -/

/-- What an option is for. -/
inductive OptionUse where
  /-- Asks for help. -/
  | help
  /-- Is there or not. -/
  | flag
  /-- Has a text. -/
  | text
  /-- Has a number. -/
  | decimal
  /-- Has a whole number. -/
  | integer
deriving DecidableEq, Repr

/-- **An option:** its names, the first of which identifies it. -/
structure OptionSpec where
  names : List String
  use : OptionUse
deriving DecidableEq, Repr

/-- Whether an option takes a value. -/
def OptionSpec.takesValue (o : OptionSpec) : Bool :=
  match o.use with
  | .help | .flag => false
  | .text | .decimal | .integer => true

/-- The names of an option, as messages show them. -/
def OptionSpec.title (o : OptionSpec) : String := String.intercalate "/" o.names

/-- The positional argument of a grammar. -/
inductive Positional where
  /-- One word. -/
  | one (title : String)
  /-- One word or none. -/
  | optional
  /-- One word of some, and all words after it. -/
  | command (title : String) (choices : List String)
deriving DecidableEq, Repr

/-- **A grammar** of command lines. -/
structure Grammar where
  program : String
  usage : String
  help : String
  options : List OptionSpec
  positional : Option Positional

namespace Grammar

/-- All names of options, in order, each with its option. -/
def names (g : Grammar) : List (String × OptionSpec) :=
  g.options.flatMap fun o => o.names.map fun n => (n, o)

/-- The option of a name. -/
def named? (g : Grammar) (name : String) : Option OptionSpec :=
  (g.names.find? fun n => n.1 = name).map Prod.snd

end Grammar

/-! ## Sorting words -/

/-- A value joined to the name of an option; `equals` tells whether by an equals sign. -/
structure Joined where
  equals : Bool
  value : String
deriving DecidableEq, Repr

/-- What a word is. -/
inductive WordClass where
  | plain
  | separator
  /-- An option, with the name it was meant by and a value joined to it. -/
  | option (spec : OptionSpec) (name : String) (joined : Option Joined)
  /-- Something with a dash that is no option. -/
  | unknown
deriving DecidableEq, Repr

/-- A word with its class. -/
abbrev Item := String × WordClass

/-- Why reading stops early. -/
inductive Stop where
  | help
  | error (message : String)
deriving DecidableEq, Repr

/-- The part of a text before the first equals sign, and the part after it if there is one. -/
def splitEquals (s : String) : String × Option String :=
  let before := s.toList.takeWhile (· != '=')
  match s.toList.drop before.length with
  | [] => (String.ofList before, none)
  | _ :: after => (String.ofList before, some (String.ofList after))

/-- Whether a text is a negative number: digits after the dash, perhaps with a point that has
digits after it. A line feed at the end is overlooked. -/
def isNegativeNumber (s : String) : Bool :=
  match s.toList with
  | '-' :: cs =>
    let cs := if cs.getLast? = some '\n' then cs.dropLast else cs
    match cs.dropWhile Text.isDigit with
    | [] => Text.isDigits cs
    | '.' :: fraction => Text.isDigits fraction
    | _ => false
  | _ => false

/-- The options that a word can mean when it is not the exact name of one. -/
def Grammar.candidates (g : Grammar) (word : String) : List (OptionSpec × String × Option Joined) :=
  match word.toList with
  | '-' :: '-' :: _ =>
    let (start, value) := splitEquals word
    (g.names.filter fun n => start.toList.isPrefixOf n.1.toList).map fun n =>
      (n.2, n.1, value.map (⟨true, ·⟩))
  | '-' :: c :: cs =>
    g.names.filterMap fun n =>
      if n.1 = String.ofList ['-', c] then some (n.2, n.1, some ⟨false, String.ofList cs⟩)
      else if word.toList.isPrefixOf n.1.toList then some (n.2, n.1, none)
      else none
  | _ => []

/-- **The class of a word** before any separator. -/
def Grammar.classify (g : Grammar) (word : String) : Except Stop WordClass :=
  match word.toList with
  | '-' :: _ :: _ =>
    match g.named? word with
    | some o => .ok (.option o word none)
    | none =>
      let (name, value) := splitEquals word
      match value, g.named? name with
      | some v, some o => .ok (.option o name (some ⟨true, v⟩))
      | _, _ =>
        match g.candidates word with
        | [] =>
          if isNegativeNumber word || word.toList.contains ' ' then .ok .plain else .ok .unknown
        | [(o, name, joined)] => .ok (.option o name joined)
        | several =>
          .error (.error ("ambiguous option: " ++ word ++ " could match " ++
            String.intercalate ", " (several.map fun s => s.2.1)))
  | _ => .ok .plain

/-- The classes of all words. -/
def Grammar.sort (g : Grammar) : List String → Except Stop (List Item)
  | [] => .ok []
  | w :: ws =>
    if w = "--" then .ok ((w, .separator) :: ws.map fun w => (w, .plain))
    else do
      let c ← g.classify w
      return (w, c) :: (← g.sort ws)

/-! ## Taking words -/

/-- What was read so far: options with their values, the words of the positional argument if
it was reached, and words that fit nowhere. -/
structure Taken where
  options : List (String × String) := []
  positional : Option (List String) := none
  extras : List String := []
deriving DecidableEq, Repr

namespace Taken

/-- Whether an option was given. -/
def has (t : Taken) (name : String) : Bool := t.options.any fun o => o.1 = name

/-- The last value given to an option. -/
def value? (t : Taken) (name : String) : Option String :=
  (t.options.reverse.find? fun o => o.1 = name).map Prod.snd

end Taken

/-- The message about an argument. -/
def complain {α : Type} (title message : String) : Except Stop α :=
  .error (.error ("argument " ++ title ++ ": " ++ message))

/-- A value that fits the use of an option. -/
def checkValue (o : OptionSpec) (value : String) : Except Stop Unit :=
  match o.use with
  | .decimal =>
    match Number.readDecimal value with
    | .ok _ => .ok ()
    | .error _ => complain o.title ("invalid float value: " ++ Text.literal value)
  | .integer =>
    match Number.readInt value with
    | .ok _ => .ok ()
    | .error _ => complain o.title ("invalid int value: " ++ Text.literal value)
  | _ => .ok ()

/-- Take an option with its value. -/
def take (o : OptionSpec) (value : String) (t : Taken) : Except Stop Taken :=
  match o.use with
  | .help => .error .help
  | _ => do
    checkValue o value
    return { t with options := t.options ++ [(o.names.headD "", value)] }

/-- Take options without values, in order. -/
def takeAll (os : List OptionSpec) (t : Taken) : Except Stop Taken :=
  os.foldlM (fun t o => take o "" t) t

/-- A word of options: those without values that it joins, and how it ends. -/
inductive Ending where
  /-- All is read. -/
  | done
  /-- The last option has a value. -/
  | valued (o : OptionSpec) (value : String)
  /-- The last option has its value in the next word. -/
  | open (o : OptionSpec)
  /-- A rest that is no option. -/
  | rest (word : String)
deriving DecidableEq, Repr

/-- **The options joined in one word,** starting with one and what is joined to it. -/
def Grammar.unjoin (g : Grammar) (o : OptionSpec) (name : String) :
    Option Joined → Nat → Except Stop (List OptionSpec × Ending)
  | none, _ => if o.takesValue then .ok ([], .open o) else .ok ([o], .done)
  | some j, fuel =>
    if o.takesValue then .ok ([], .valued o j.value)
    else
      let ignored : Except Stop (List OptionSpec × Ending) :=
        complain o.title ("ignored explicit argument " ++ Text.literal j.value)
      match name.toList, j.value.toList, fuel with
      | '-' :: '-' :: _, _, _ => ignored
      | _, [], _ => ignored
      | _, _, 0 => ignored
      | _, c :: cs, fuel + 1 =>
        if j.equals || c = '-' then ignored
        else
          let next := String.ofList ['-', c]
          match g.named? next with
          | none => .ok ([o], .rest (String.ofList ('-' :: c :: cs)))
          | some o' => do
            let joined : Option Joined :=
              match cs with
              | [] => none
              | '=' :: value => some ⟨true, String.ofList value⟩
              | _ => some ⟨false, String.ofList cs⟩
            let (os, ending) ← g.unjoin o' next joined fuel
            return (o :: os, ending)

/-- The words that a positional argument takes from the front, if it can. A separator before or
after a plain word goes with it. -/
def Positional.span (p : Positional) (items : List Item) : Option Nat :=
  let isSeparator (i : Item) : Bool := i.2 = .separator
  let before := (items.takeWhile isSeparator).length
  match items.drop before with
  | (_, .plain) :: rest =>
    match p with
    | .command .. => some items.length
    | _ => some (before + 1 + (rest.takeWhile isSeparator).length)
  | _ =>
    match p with
    | .optional => some before
    | _ => none

/-- The words of a positional argument, without the first separator among them; a command has
to be one of its choices. -/
def Positional.words (p : Positional) (words : List String) : Except Stop (List String) :=
  match p with
  | .command title choices =>
    let word := words.headD ""
    if choices.contains word then .ok words
    else
      complain title ("invalid choice: " ++ Text.literal word ++ " (choose from " ++
        String.intercalate ", " (choices.map Text.literal) ++ ")")
  | _ => .ok (words.erase "--")

/-- Take the positional argument if it was not taken before: what was read then, and how many
words were used. -/
def Grammar.takePositional (g : Grammar) (items : List Item) (t : Taken) :
    Except Stop (Taken × Nat) :=
  match g.positional, t.positional with
  | some p, none =>
    match p.span items with
    | none => .ok (t, 0)
    | some n => do
      let words ← p.words ((items.take n).map Prod.fst)
      return ({ t with positional := some words }, n)
  | _, _ => .ok (t, 0)

/-- Whether a word was sorted as an option, known or not. -/
def isOption (i : Item) : Bool :=
  match i.2 with
  | .option .. | .unknown => true
  | _ => false

/-- Take what starts with an option; the number of words used after its own. -/
def Grammar.takeOption (g : Grammar) (item : Item) (rest : List Item) (t : Taken) :
    Except Stop (Taken × Nat) :=
  match item.2 with
  | .option o name joined => do
    let (os, ending) ← g.unjoin o name joined item.1.length
    match ending with
    | .done => return (← takeAll os t, 0)
    | .valued o value => return (← take o value (← takeAll os t), 0)
    | .rest word => return ({ (← takeAll os t) with extras := t.extras ++ [word] }, 0)
    | .open o =>
      match rest with
      | (value, .plain) :: _ => return (← take o value (← takeAll os t), 1)
      | _ => complain o.title "expected one argument"
  | _ => return ({ t with extras := t.extras ++ [item.1] }, 0)

/-- **Taking words** from left to right. -/
def Grammar.takeWords (g : Grammar) (items : List Item) (t : Taken) : Except Stop Taken :=
  match items with
  | [] => do return (← g.takePositional [] t).1
  | item :: rest =>
    if isOption item then do
      let (t, n) ← g.takeOption item rest t
      g.takeWords (rest.drop n) t
    else do
      let (t, n) ← g.takePositional (item :: rest) t
      if n = 0 then g.takeWords rest { t with extras := t.extras ++ [item.1] }
      else g.takeWords (rest.drop (n - 1)) t
termination_by items.length
decreasing_by all_goals (simp; try omega)

/-- **Reading a command line.** -/
def Grammar.read (g : Grammar) (words : List String) : Except Stop Taken := do
  let t ← g.takeWords (← g.sort words) {}
  match g.positional, t.positional with
  | some (.one title), none =>
    .error (.error ("the following arguments are required: " ++ title))
  | _, _ => return t

end ClipScript.CommandLine
