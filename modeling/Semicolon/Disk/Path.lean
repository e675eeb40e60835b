/-
Paths as strings.

A path is what a user types: it is cut at its slashes and put together again without a look at
the disk.  Where it leads is the disk's business.
-/

namespace Semicolon.Path

/-- The parts of a text between slashes.  There is always at least one, and an empty one stands
for a slash at either end or next to another. -/
def parts : List Char → List (List Char)
  | [] => [[]]
  | c :: rest =>
    match parts rest with
    | [] => [[c]]
    | p :: ps => if c = '/' then [] :: p :: ps else (c :: p) :: ps

/-- The steps of a path, one for each part between slashes. -/
def steps (path : String) : List String := (parts path.toList).map String.ofList

/-- Does the path start at the top? -/
def isAbsolute (path : String) : Bool := path.toList.head? = some '/'

/-- The path of `name` in the directory `dir`.  An absolute name stands by itself. -/
def join (dir name : String) : String :=
  if isAbsolute name then name
  else if dir.isEmpty || dir.toList.getLast? = some '/' then dir ++ name
  else dir ++ "/" ++ name

/-- Everything up to and including the last slash, and what follows it. -/
def cutLast (cs : List Char) : List Char × List Char :=
  let name := cs.reverse.takeWhile (· ≠ '/')
  let head := cs.reverse.dropWhile (· ≠ '/')
  (head.reverse, name.reverse)

/-- A directory part without the slashes that it ends in, unless it is nothing but slashes. -/
def bare (head : List Char) : List Char :=
  if head.all (· = '/') then head else (head.reverse.dropWhile (· = '/')).reverse

/-- The directory part and the last name of a path. -/
def split (path : String) : String × String :=
  let (head, name) := cutLast path.toList
  (String.ofList (bare head), String.ofList name)

/-- The directory part of a path; empty if it has none. -/
def parent (path : String) : String := (split path).1

/-- Does the path end in the suffix? -/
def hasSuffix (path suffix : String) : Bool := suffix.toList.isSuffixOf path.toList

end Semicolon.Path
