/-!
# Slash-separated paths

Paths are texts whose elements are separated by `/`; a path that starts with `/` is
absolute.  The functions here are purely lexical, they never look at a file system:

* `cleanPath` is the shortest path naming the same file: repeated separators, `.` elements
  and each `..` together with the element before it are removed, and a `..` right after the
  root is dropped.  An empty result is `.`.
* `baseName` is the last element, trailing separators ignored; `dirName` is everything up
  to the last separator, cleaned.  `extension` is the base name's suffix from its last dot.
* `joinPath` joins the non-empty elements and cleans the result; `absolutePath` resolves a
  path against a working directory.

`classNameOf` names the class compiled from a source file: the base name without its
extension, with every character other than an ASCII letter, digit or `_` replaced by `_`,
and `_` put in front when the result is empty or starts with a digit.
-/

namespace BasicJvm.Files

/-- The shortest path naming the same file, lexically. -/
def cleanPath (p : String) : String :=
  if p.isEmpty then "." else
  let rooted := p.startsWith "/"
  let parts := (p.splitOn "/").filter fun s => !s.isEmpty && s != "."
  let step (acc : List String) (s : String) : List String :=
    if s == ".." then
      match acc with
      | top :: rest => if top == ".." then s :: acc else rest
      | [] => if rooted then [] else [s]
    else s :: acc
  let body := "/".intercalate (parts.foldl step []).reverse
  if rooted then "/" ++ body else if body.isEmpty then "." else body

/-- The characters of a path without its trailing separators. -/
def withoutTrailingSlashes (p : String) : List Char :=
  (p.toList.reverse.dropWhile (· == '/')).reverse

/-- The last element of a path: `.` for the empty path and `/` for the root. -/
def baseName (p : String) : String :=
  if p.isEmpty then "." else
  let trimmed := withoutTrailingSlashes p
  if trimmed.isEmpty then "/" else
  String.ofList (trimmed.reverse.takeWhile (· != '/')).reverse

/-- The directory part of a path: everything up to its last separator, cleaned. -/
def dirName (p : String) : String :=
  cleanPath (String.ofList (p.toList.reverse.dropWhile (· != '/')).reverse)

/-- The suffix of the last element from its last dot, or the empty text. -/
def extension (p : String) : String :=
  let name := (p.toList.reverse.takeWhile (· != '/')).reverse
  let afterDot := name.reverse.takeWhile (· != '.')
  if afterDot.length < name.length then String.ofList ('.' :: afterDot.reverse) else ""

/-- The non-empty elements joined by `/` and cleaned, or the empty text when there are
none. -/
def joinPath (parts : List String) : String :=
  let nonEmpty := parts.filter (!·.isEmpty)
  if nonEmpty.isEmpty then "" else cleanPath ("/".intercalate nonEmpty)

/-- A path resolved against the working directory `cwd`, cleaned. -/
def absolutePath (cwd p : String) : String :=
  if p.startsWith "/" then cleanPath p else joinPath [cwd, p]

/-- Whether a character may stand in a class name as it is. -/
def isNameChar (c : Char) : Bool :=
  ('A' ≤ c && c ≤ 'Z') || ('a' ≤ c && c ≤ 'z') || ('0' ≤ c && c ≤ '9') || c == '_'

/-- The name of the class compiled from the source file at `path`. -/
def classNameOf (path : String) : String :=
  let base := baseName path
  let stem := base.toList.take (base.length - (extension base).length)
  let name := stem.map fun c => if isNameChar c then c else '_'
  match name with
  | c :: _ => if '0' ≤ c && c ≤ '9' then String.ofList ('_' :: name) else String.ofList name
  | [] => "_"

end BasicJvm.Files
