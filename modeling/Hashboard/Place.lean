import Hashboard.Cause

/-!
# Places

The files of the machine form a tree, and a place in the tree is reached name by name. Some names are links:
they stand for a way through the tree, on which there may be links again, but not without end. The machine
is taken to have the usual directories, links and special files, and the program to run in an empty
directory.
-/

namespace Hashboard

/-- What stands at a place in the tree. -/
inductive Node where
  | directory
  /-- A file with a text in it. -/
  | file
  /-- A file in which the system shows something, and which nobody else writes. -/
  | display
  /-- A device that takes everything and keeps nothing. -/
  | sink
  /-- A device that has room for nothing. -/
  | full
  | random
  /-- The terminal of the program, which has none. -/
  | terminal
  deriving DecidableEq, Repr

namespace Node

def openError? : Node → Option Cause
  | directory => some .isDirectory
  | terminal => some .noDevice
  | file | display | sink | full | random => none

def writeError? : Node → Option Cause
  | full => some .noSpace
  | display => some .inputOutput
  | node => node.openError?

/-- Why a node that was opened refuses a request to a bus. -/
def refusal : Node → Cause
  | random => .invalidRequest
  | directory | file | display | sink | full | terminal => .notSupported

/-- Whether a text that is written to a node can be read from it afterwards. -/
def keeps : Node → Bool
  | file => true
  | directory | display | sink | full | random | terminal => false

end Node

/-- A place in the tree: the names on the way from the root. -/
abbrev Place : Type := List String

namespace Place

/-- The directory that the program runs in. -/
def working : Place := ["tmp", "run"]

/-- The directory in which the system shows the program itself. -/
def process : Place := ["proc", "1"]

/-- The directories apart from the root and the working directory. -/
def directories : List Place := [
  ["boot"], ["home"], ["media"], ["mnt"], ["opt"], ["root"], ["run"], ["run", "lock"], ["srv"],
  ["tmp"],
  ["dev"], ["dev", "mqueue"], ["dev", "pts"], ["dev", "shm"],
  ["etc"],
  ["proc"], process, process ++ ["fd"], ["proc", "sys"],
  ["sys"], ["sys", "bus"], ["sys", "class"], ["sys", "dev"], ["sys", "devices"],
  ["usr"], ["usr", "bin"], ["usr", "include"], ["usr", "lib"], ["usr", "lib64"], ["usr", "local"],
  ["usr", "local", "bin"], ["usr", "local", "lib"], ["usr", "sbin"], ["usr", "share"],
  ["var"], ["var", "cache"], ["var", "lib"], ["var", "log"], ["var", "spool"], ["var", "tmp"]]

def programs : List Place :=
  ["bash", "cat", "cp", "env", "false", "ls", "mkdir", "mv", "rm", "sh", "true"].map fun name =>
    ["usr", "bin", name]

/-- The place of a stream that a program begins with. Only links lead there, as no path has a name with a
slash in it. -/
def stream (number : String) : Place := ["stream/" ++ number]

def streamNumbers : List String := ["0", "1", "2"]

/-- The links, and the ways from the root that they stand for. -/
def links : List (Place × List String) :=
  streamNumbers.map (fun number => (process ++ ["fd", number], stream number)) ++ [
    (["bin"], ["usr", "bin"]),
    (["lib"], ["usr", "lib"]),
    (["lib64"], ["usr", "lib64"]),
    (["sbin"], ["usr", "sbin"]),
    (["dev", "fd"], ["proc", "self", "fd"]),
    (["dev", "stdin"], ["proc", "self", "fd", "0"]),
    (["dev", "stdout"], ["proc", "self", "fd", "1"]),
    (["dev", "stderr"], ["proc", "self", "fd", "2"]),
    (["proc", "self"], process),
    (process ++ ["cwd"], working),
    (process ++ ["root"], []),
    (["var", "lock"], ["run", "lock"]),
    (["var", "run"], ["run"])]

/-- The tree, apart from its root. -/
def tree : List (Place × Node) :=
  (working, .directory) :: directories.map (·, .directory) ++
    programs.map (·, .file) ++ streamNumbers.map (stream ·, .sink) ++ [
    (["dev", "full"], .full),
    (["dev", "null"], .sink),
    (["dev", "random"], .random),
    (["dev", "tty"], .terminal),
    (["dev", "urandom"], .random),
    (["dev", "zero"], .sink),
    (["etc", "fstab"], .file),
    (["etc", "group"], .file),
    (["etc", "hostname"], .file),
    (["etc", "hosts"], .file),
    (["etc", "issue"], .file),
    (["etc", "os-release"], .file),
    (["etc", "passwd"], .file),
    (["etc", "profile"], .file),
    (["etc", "resolv.conf"], .file),
    (["etc", "shadow"], .file),
    (["etc", "shells"], .file),
    (["proc", "cpuinfo"], .display),
    (["proc", "meminfo"], .display),
    (["proc", "stat"], .display),
    (["proc", "uptime"], .display),
    (["proc", "version"], .display)]

def node? (place : Place) : Option Node :=
  if place.isEmpty then some .directory else tree.lookup place

def checkDirectory (place : Place) : Except Cause Unit :=
  match place.node? with
  | some .directory => .ok ()
  | some _ => .error .notDirectory
  | none => .error .notFound

def maxNameLength : Nat := 255

/-- Whether a directory holds the names in it to that length. Where the system itself makes the names up, any
other name is unknown, however long it is. -/
def limitsNames : Place → Bool
  | "proc" :: _ | "sys" :: _ => false
  | _ => true

/-- How far some names lead without a link. -/
inductive Leg where
  /-- To the place where they lead. -/
  | whole (place : Place)
  /-- Up to a link; with it, the names from the root that are still to go. -/
  | link (names : List String)
  deriving DecidableEq, Repr

/-- Goes along some names up to the first link; perhaps nothing stands where they lead. -/
def leg (place : Place) : List String → Except Cause Leg
  | [] => return .whole place
  | name :: names => do
    place.checkDirectory
    if name = "." then leg place names
    else if name = ".." then leg place.dropLast names
    else if place.limitsNames && maxNameLength < name.utf8ByteSize then throw .nameTooLong
    else match links.lookup (place ++ [name]) with
      | some way => return .link (way ++ names)
      | none => leg (place ++ [name]) names

/-- The place that some names lead to by way of so many links at most. -/
def walkWithin : Nat → Place → List String → Except Cause Place
  | limit, place, names => do
    match ← leg place names with
    | .whole place => return place
    | .link names =>
      match limit with
      | 0 => throw .tooManyLinks
      | limit + 1 => walkWithin limit [] names

def maxLinks : Nat := 40

def walk : Place → List String → Except Cause Place :=
  walkWithin maxLinks

/-- Why no file can be made in a directory, if none can: the files of the system make themselves. -/
def sealed? : Place → Option Cause
  | "proc" :: _ => some .notFound
  | "dev" :: "pts" :: _ => some .permissionDenied
  | "sys" :: _ => some .readOnly
  | _ => none

def writeError? (place : Place) : Option Cause :=
  match place.node? with
  | some node => node.writeError?
  | none => sealed? place.dropLast

end Place

end Hashboard
