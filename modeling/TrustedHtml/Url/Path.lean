import TrustedHtml.Url.Percent

/-!
# Paths

A path is a sequence of segments. The segments `.` and `..`, in any of their encoded forms,
stand for the current and the enclosing directory and are resolved while the path is read.

## Main definitions

* `Path.isDot`, `Path.isDotDot` — the two special segments.
* `Path.enter` — one more directory on the way.
* `Path.resolve` — the written form of a path, without special segments.
-/

namespace TrustedHtml.Url.Path

/-- The segment for the current directory. -/
def isDot (segment : List Char) : Bool :=
  String.ofList (segment.map Char.toLower) == "." ||
    String.ofList (segment.map Char.toLower) == "%2e"

/-- The segment for the enclosing directory. -/
def isDotDot (segment : List Char) : Bool :=
  ["..", "%2e%2e", "%2e.", ".%2e"].contains (String.ofList (segment.map Char.toLower))

/-- A letter with a colon or a bar. -/
def isDrive : List Char → Bool
  | [letter, mark] => letter.isAlpha && (mark == ':' || mark == '|')
  | _ => false

/-- Whether `..` does not leave the directory: it is a drive, or looks like the beginning of a
path on one. -/
def isOnDrive (segment : List Char) : Bool :=
  isDrive (segment.take 2) && (segment.drop 2).head?.all (· == '\\')

/-- The directories without the innermost one. -/
def leave (directories : List (List Char)) : List (List Char) :=
  match directories.getLast? with
  | some innermost => if isOnDrive innermost then directories else directories.dropLast
  | none => []

/-- The directories after one more segment, which a slash follows. -/
def enter (directories : List (List Char)) (segment : List Char) : List (List Char) :=
  if isDotDot segment then leave directories
  else if isDot segment then directories
  else directories ++ [segment]

/-- Split at the separators: the slash, and on the web the backslash. -/
def split (special : Bool) : List Char → List (List Char)
  | [] => [[]]
  | c :: rest =>
    if c == '/' || (special && c == '\\') then [] :: split special rest
    else match split special rest with
      | segment :: others => (c :: segment) :: others
      | [] => [[c]]

/-- The path whose text, behind the first slash, is given. -/
def resolve (special : Bool) (cs : List Char) : List Char :=
  let segments := (split special cs).map (Percent.encode Percent.path)
  let directories := segments.dropLast.foldl enter []
  let last := segments.getLast?.getD []
  let directories := if isDotDot last then leave directories else directories
  let last := if isDotDot last || isDot last then [] else last
  '/' :: directories.flatMap (· ++ ['/']) ++ last

end TrustedHtml.Url.Path
