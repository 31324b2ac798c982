/-
# Manifests

A manifest is a JSON file with everything that compiling a script needs: the
script itself or a path to it, the files to read and write, and media facts given
by hand. A path to a script is relative to the folder of the manifest. When both
are there the script counts.

Values are kept as they are written; whether they can be used shows when they are
used. Only the media facts are checked at once: they have three members at most.
-/
import ClipScript.Compilation
import ClipScript.Host
import ClipScript.Json.Reader

set_option autoImplicit false

namespace ClipScript

/-- Media facts given by hand. -/
structure MediaFacts where
  resolution : Json := .null
  duration : Json := .null
  codecs : Json := .object []
deriving Inhabited

namespace MediaFacts

/-- Media facts from JSON: an object with no other members. -/
def ofJson : Json → Except Fault MediaFacts
  | .object ms =>
    if ms.all fun m => ["resolution", "duration", "codecs"].contains m.1 then
      .ok { resolution := Json.get ms "resolution", duration := Json.get ms "duration"
            codecs := (Json.lookup "codecs" ms).getD (.object []) }
    else .error .wrongKind
  | _ => .error .wrongKind

/-- **The descriptor** of media facts for a file; none if no fact is given. -/
def descriptor (facts : MediaFacts) (filename : Json) : Except Fault (Option Descriptor) :=
  if facts.resolution.isNull && facts.duration.isNull && !facts.codecs.isGiven then .ok none
  else
    (Descriptor.ofJson (.object [("filename", filename), ("resolution", facts.resolution),
      ("duration", facts.duration), ("codecs", facts.codecs)])).map some

end MediaFacts

/-- **A manifest.** -/
structure Manifest where
  script : Json := .null
  scriptPath : Option Path := none
  version : Json := .text "1"
  input : Json := .null
  output : Json := .null
  overwrite : Bool := false
  probe : Bool := false
  media : MediaFacts := {}

namespace Manifest

/-! ## Reading -/

/-- Whether a text stands somewhere in another one. -/
def occursIn (word : List Char) : List Char → Bool
  | [] => word.isEmpty
  | c :: cs => word.isPrefixOf (c :: cs) || occursIn word cs

/-- Whether a value mentions a name: an object among its names, an array among its items, and
a text anywhere in it. -/
def mentions (name : String) : Json → Except Fault Bool
  | .object ms => .ok (Json.lookup name ms).isSome
  | .array items => .ok (items.any fun j => j.text? == some name)
  | .text s => .ok (occursIn name.toList s.toList)
  | _ => .error .wrongKind

/-- The path to a script, read from a folder; none if it is not given. -/
def pathFrom (folder : Path) (j : Json) : Except Fault (Option Path) :=
  if !j.isGiven then .ok none
  else
    match j with
    | .text s => .ok (some (folder.join (.ofText s)))
    | _ => .error .wrongKind

/-- **A manifest from JSON,** with the folder that it is in. -/
def ofJson (folder : Path) (j : Json) : Except Fault Manifest := do
  if !(← mentions "script" j) && !(← mentions "script_path" j) then .error .noScriptField
  else
    match j with
    | .object ms =>
      let scriptPath ← pathFrom folder (Json.get ms "script_path")
      let media ← match Json.lookup "descriptor" ms with
        | some d => MediaFacts.ofJson d
        | none => pure {}
      return {
        script := Json.get ms "script"
        scriptPath
        version := (Json.lookup "version" ms).getD (.text "1")
        input := Json.get ms "input"
        output := Json.get ms "output"
        overwrite := (Json.get ms "overwrite").isGiven
        probe := (Json.get ms "probe").isGiven
        media }
    | _ => .error .wrongShape

/-- **Loading a manifest** from a file. -/
def load {m : Type → Type} [Monad m] (host : Host m) (path : Path) :
    ExceptT Fault m Manifest := do
  let text ← host.fileText path
  ExceptT.mk (pure (Json.read text host.manifestDepth >>= ofJson path.parent))

/-! ## Use -/

/-- **The script of a manifest,** as it is given or read from its file. -/
def readScript {m : Type → Type} [Monad m] (host : Host m) (manifest : Manifest) :
    ExceptT Fault m Json := do
  if !manifest.script.isNull then return manifest.script
  else
    match manifest.scriptPath with
    | none => ExceptT.mk (pure (.error .noScript))
    | some path => return .text (← host.fileText path)

/-- The settings of a manifest. -/
def settings (manifest : Manifest) : Settings :=
  { input := manifest.input, output := manifest.output, overwrite := manifest.overwrite }

/-- The descriptor of a manifest. -/
def descriptor (manifest : Manifest) : Except Fault (Option Descriptor) :=
  manifest.media.descriptor manifest.input

end Manifest

end ClipScript
