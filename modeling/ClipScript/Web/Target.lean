/-
# Targets of requests

A request names what it wants by a target: perhaps two slashes and a host, then a
path, perhaps a query after `?` and a fragment after `#`. Only the path counts. In
it any character can be written as `%` and two hexadecimal digits, and slashes at
its front count as one.
-/
import ClipScript.Json.Reader

set_option autoImplicit false

namespace ClipScript.Web

/-- A text in which `%` and two hexadecimal digits stand for a character. -/
def percentDecoded : List Char → List Char
  | '%' :: a :: b :: cs =>
    match Json.hexValue? a, Json.hexValue? b with
    | some x, some y => Char.ofNat (16 * x + y) :: percentDecoded cs
    | _, _ => '%' :: percentDecoded (a :: b :: cs)
  | c :: cs => c :: percentDecoded cs
  | [] => []

/-- A target without the host at its front. -/
def withoutHost : List Char → List Char
  | '/' :: '/' :: cs => cs.dropWhile fun c => c != '/' && c != '?' && c != '#'
  | cs => cs

/-- **The path** that a target names. -/
def pathOf (target : List Char) : List Char :=
  let written := (withoutHost target).takeWhile fun c => c != '?' && c != '#'
  match percentDecoded written with
  | [] => []
  | cs => '/' :: cs.dropWhile (· == '/')

/-- A path with every two slashes in a row made one. -/
def mergeSlashes : List Char → List Char
  | '/' :: '/' :: cs => '/' :: mergeSlashes cs
  | c :: cs => c :: mergeSlashes cs
  | [] => []

end ClipScript.Web
