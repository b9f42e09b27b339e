/-!
# Log lines

A log record has a level, the tag of the part that wrote it, and a text. Records above the chosen level
are not shown; warnings and errors go to the error stream.
-/

namespace Hashboard.Log

/-- How much a record matters, most first. -/
inductive Level where
  | error
  | warn
  | info
  | debug
  | trace
  deriving DecidableEq, Repr

namespace Level

def rank : Level → Nat
  | error => 1
  | warn => 2
  | info => 3
  | debug => 4
  | trace => 5

def letters : Level → String
  | error => "ERR "
  | warn => "WARN"
  | info => "INFO"
  | debug => "DBG "
  | trace => "TRC "

def named : List (String × Level) :=
  [("error", error), ("warn", warn), ("info", info), ("debug", debug), ("trace", trace)]

end Level

/-- The least important level that is shown; none if nothing is. -/
abbrev Limit : Type := Option Level

def Limit.shows (limit : Limit) (level : Level) : Bool :=
  limit.any fun bound => level.rank ≤ bound.rank

def Limit.named : List (String × Limit) :=
  ("off", none) :: Level.named.map fun (name, level) => (name, some level)

/-- The limit with this name, in letters of either case. -/
def Limit.ofName? (name : String) : Option Limit :=
  named.lookup (name.map Char.toLower)

def Limit.name (limit : Limit) : String :=
  ((Limit.named.find? fun entry => entry.2 == limit).map Prod.fst).getD ""

/-- The characters behind the last two colons in a row, from characters in reverse. -/
def lastSegment : List Char → List Char
  | ':' :: ':' :: _ => []
  | c :: rest => c :: lastSegment rest
  | [] => []

/-- The part of the program that wrote a record: the last segment of its path, in capitals. -/
def tagOf (path : String) : String :=
  String.ofList ((lastSegment path.toList.reverse).reverse.map Char.toUpper)

/-- What stands in front of the text: the level, and the tag in eight columns. -/
def lead (level : Level) (tag : String) : String :=
  let column := tag.pushn ' ' (8 - tag.length)
  s!"[{level.letters}][{column}]"

inductive Stream where
  | out
  | err
  deriving DecidableEq, Repr

structure Record where
  level : Level
  tag : String
  text : String
  deriving DecidableEq, Repr

def Record.line (r : Record) : String :=
  s!"{lead r.level r.tag} {r.text}"

def Record.stream (r : Record) : Stream :=
  match r.level with
  | .error | .warn => .err
  | .info | .debug | .trace => .out

/-- The lines that are shown of some records, each with its stream. -/
def lines (limit : Limit) (records : List Record) : List (Stream × String) :=
  (records.filter fun r => limit.shows r.level).map fun r => (r.stream, r.line)

end Hashboard.Log
