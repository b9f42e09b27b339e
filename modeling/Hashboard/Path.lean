import Hashboard.Place

/-!
# Paths

A path is the text of a way through the tree of files, from the root or from the working directory. The
tree settles whether it can be opened, and whether a file can be written there.
-/

namespace Hashboard.Path

def maxLength : Nat := 4095

def names (path : String) : List String :=
  (path.splitOn "/").filter (· ≠ "")

/-- Whether a path can lead to a directory only, by what it ends in. -/
def endsInDirectory (path : String) : Bool :=
  path.endsWith "/" ∨ (names path).getLast? = some "." ∨ (names path).getLast? = some ".."

/-- The place where a path begins. -/
def origin (path : String) : Place :=
  if path.startsWith "/" then [] else .working

/-- Refuses a path that leads nowhere, wherever it begins. -/
def check (path : String) : Except Cause Unit :=
  if path.contains '\x00' then .error .zeroCharacter
  else if path = "" then .error .notFound
  else if maxLength < path.utf8ByteSize then .error .nameTooLong
  else .ok ()

def open? (path : String) : Except Cause Node := do
  check path
  let place ← (origin path).walk (names path)
  if path.endsWith "/" then place.checkDirectory
  match place.node? with
  | none => throw .notFound
  | some node => node.openError?.elim (return node) throw

/-- The place of the file that is made or written anew when a text is written to a path. -/
def target? (path : String) : Except Cause Place := do
  check path
  let directory ← (origin path).walk (names path).dropLast
  directory.checkDirectory
  if endsInDirectory path then throw .isDirectory
  let place ← (origin path).walk (names path)
  place.writeError?.elim (return place) throw

def writeError? (path : String) : Option Cause :=
  match target? path with
  | .error cause => some cause
  | .ok _ => none

/-- What is read from a path after a text was written to it. -/
def readBack (path text : String) : String :=
  match (target? path).toOption.bind Place.node? with
  | some node => if node.keeps then text else ""
  | none => text

/-- The name of the file in the working directory that a text goes to, if it goes to one. -/
def localName? (path : String) : Option String := do
  let place ← (target? path).toOption
  if place.dropLast = Place.working then place.getLast? else none

end Hashboard.Path
