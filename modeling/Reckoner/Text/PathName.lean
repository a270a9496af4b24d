import Reckoner.Text.Fields
import Reckoner.Text.Quoted

namespace Reckoner

/-!
# Path names

The names of files as slash-separated texts, without looking at any file.  Empty components and
single dots mean nothing and are dropped, double dots are kept; two leading slashes are a root of
their own, any other number of them is the usual root.

Main definitions:
* `PathName.parse`, `PathName.text`: from and to text
* `PathName.name`: the last component
* `PathName.suffix`, `PathName.suffixes`: the last dotted suffix of the name, and all of them
* `PathName.withName`: the path with another last component
* `PathName.resultsPath?`: where the results for an input file go
-/

/-- A path: its root, which is empty for a relative one, and its components. -/
structure PathName where
  root : String
  parts : List String
  deriving DecidableEq, Repr

namespace PathName

open Text

/-- The root that a number of leading slashes stands for. -/
def rootOf : (slashes : Nat) → String
  | 0 => ""
  | 2 => "//"
  | _ => "/"

/-- The path that a text names. -/
def parse (s : String) : PathName where
  root := rootOf (s.toList.takeWhile (· = '/')).length
  parts := ((fields '/' s.toList).filter fun part => part ≠ [] ∧ part ≠ ['.']).map String.ofList

/-- The text of a path; the path of nothing at all is a dot. -/
def text (p : PathName) : String :=
  if p.root = "" ∧ p.parts = [] then "." else p.root ++ "/".intercalate p.parts

/-- The last component, empty if there is none. -/
def name (p : PathName) : String := p.parts.getLast?.getD ""

/-- The part of a name from its last dot on, unless the dot is its first or its last character. -/
def suffixOf (name : List Char) : List Char :=
  let extension := (name.reverse.takeWhile (· ≠ '.')).reverse
  let stem := name.take (name.length - (extension.length + 1))
  if extension ≠ [] ∧ stem ≠ [] then '.' :: extension else []

/-- The pieces of a name from its first dot on, each with its dot.  Leading dots are no suffix, and
    a name that ends in a dot has none. -/
def suffixesOf (name : List Char) : List (List Char) :=
  if name.getLast? = some '.' then []
  else ((fields '.' (name.dropWhile (· = '.'))).drop 1).map ('.' :: ·)

/-- The last suffix of the name. -/
def suffix (p : PathName) : String := String.ofList (suffixOf p.name.toList)

/-- All suffixes of the name. -/
def suffixes (p : PathName) : List String := (suffixesOf p.name.toList).map String.ofList

/-- The same path with another last component. -/
def withName (p : PathName) (name : String) : PathName :=
  { p with parts := p.parts.dropLast ++ [name] }

/-! ### The results path -/

/-- The name of the results file for an input file: the dots of its suffixes become underscores,
    and an ending of its own follows. -/
def resultsName (name : List Char) : List Char :=
  let ending := (suffixesOf name).flatten
  name.take (name.length - ending.length) ++ ending.map (fun c => if c = '.' then '_' else c) ++
    "_results.txt".toList

/-- The path of the results file, beside the input file; none for a path without a name. -/
def resultsPath? (p : PathName) : Option PathName :=
  if p.name = "" then none
  else some (p.withName (String.ofList (resultsName p.name.toList)))

/-- What is said of a path that has no results path. -/
def emptyNameMessage (p : PathName) : String :=
  "PosixPath(" ++ quoted p.text ++ ") has an empty name"

end PathName

end Reckoner
