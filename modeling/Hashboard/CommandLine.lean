import Hashboard.Numeral
import Hashboard.Settings

/-!
# The command line

Arguments are named by two dashes. A named argument has a value, which follows behind an equals sign or
as the next word, or it is a flag. A value that is a word of its own is only looked at when the next
argument comes or the line ends, so a fault of the next word's name goes first.
-/

namespace Hashboard

/-- Why a command line cannot be understood, or need not be. -/
inductive UsageError where
  /-- A value is missing, or not one of the possible ones. -/
  | invalidValue
  | valueValidation
  | unknownArgument
  /-- An argument that may be given once is given twice. -/
  | argumentConflict
  /-- A flag was given a value. -/
  | tooManyValues
  | displayHelp
  | displayVersion
  deriving DecidableEq, Repr

def UsageError.message : UsageError → String
  | invalidValue => "a value is missing or not one of the possible ones"
  | valueValidation => "a value cannot be read"
  | unknownArgument => "there is no such argument"
  | argumentConflict => "an argument is given twice"
  | tooManyValues => "a flag takes no value"
  | displayHelp => "help is asked for"
  | displayVersion => "the version is asked for"

inductive Argument where
  | bus
  | spidev
  | spiSpeed
  | i2c
  | slaves
  | pollMicros
  | statsSecs
  | durationSecs
  | epochSecs
  | softRefresh
  | simDevices
  | simBoards
  | simQueueDepth
  | simCompletions
  | statsOutput
  | logLevel
  | debug
  | help
  | version
  deriving DecidableEq, Repr

namespace Argument

def named : List (String × Argument) := [
  ("bus", bus),
  ("spidev", spidev),
  ("spi-speed", spiSpeed),
  ("i2c", i2c),
  ("slaves", slaves),
  ("poll-interval-us", pollMicros),
  ("stats-secs", statsSecs),
  ("duration-secs", durationSecs),
  ("epoch-secs", epochSecs),
  ("soft-refresh", softRefresh),
  ("sim-devices", simDevices),
  ("sim-boards", simBoards),
  ("sim-queue-depth", simQueueDepth),
  ("sim-completions", simCompletions),
  ("stats-output", statsOutput),
  ("log-level", logLevel),
  ("debug", debug),
  ("help", help),
  ("version", version)]

def isFlag : Argument → Bool
  | softRefresh | debug | help | version => true
  | _ => false

end Argument

structure SlaveError where
  text : String
  error : NumeralError
  deriving DecidableEq, Repr

def SlaveError.message (e : SlaveError) : String :=
  s!"invalid slave address '{e.text}': {e.error.message}"

namespace CommandLine

/-! ## Values -/

/-- Reads a slave address: hexadecimal behind `0x`, else decimal. -/
def readSlave (text : String) : Except SlaveError UInt16 :=
  let number := match text.toList with
    | '0' :: 'x' :: digits | '0' :: 'X' :: digits => Numeral.read 16 (UInt16.size - 1) digits
    | chars => Numeral.read 10 (UInt16.size - 1) chars
  match number with
  | .ok n => .ok (UInt16.ofNat n)
  | .error e => .error ⟨text, e⟩

/-- A number that was read, unless it could not be. -/
def checked (number : Except NumeralError Nat) : Except UsageError Nat :=
  number.mapError fun _ => .valueValidation

/-- Reads a number that fits in 64 bits. -/
def readWide (text : String) : Except UsageError Nat :=
  checked (Numeral.read 10 (UInt64.size - 1) text.toList)

/-- Reads a number below `size`, for sizes up to 32 bits. -/
def readNarrow (size : Nat) (text : String) : Except UsageError Nat :=
  checked (Numeral.readSigned (size - 1) text.toList)

/-- Reads a path, which may not be empty. -/
def readPath (text : String) : Except UsageError String :=
  if text.isEmpty then .error .invalidValue else .ok text

def readLogLimit (text : String) : Except UsageError Log.Limit :=
  match Log.Limit.ofName? text with
  | some limit => .ok limit
  | none => .error .valueValidation

def store (o : Options) (argument : Argument) (value : String) : Except UsageError Options := do
  match argument with
  | .bus =>
    match BusKind.named.lookup value with
    | some bus => return { o with bus }
    | none => throw .invalidValue
  | .spidev => return { o with spidev := ← readPath value }
  | .spiSpeed => return { o with spiSpeed := ← readNarrow UInt32.size value }
  | .i2c => return { o with i2c := ← readPath value }
  | .slaves =>
    match (value.splitOn ",").mapM readSlave with
    | .ok slaves => return { o with slaves := o.slaves ++ slaves }
    | .error _ => throw .valueValidation
  | .pollMicros => return { o with pollMicros := ← readWide value }
  | .statsSecs => return { o with statsSecs := ← readWide value }
  | .durationSecs => return { o with durationSecs := some (← readWide value) }
  | .epochSecs => return { o with epochSecs := ← readWide value }
  | .simDevices =>
    let devices := UInt8.ofNat (← readNarrow UInt8.size value)
    return { o with simulation := { o.simulation with devices } }
  | .simBoards =>
    let boards := UInt8.ofNat (← readNarrow UInt8.size value)
    return { o with simulation := { o.simulation with boards } }
  | .simQueueDepth =>
    let queueDepth := UInt16.ofNat (← readNarrow UInt16.size value)
    return { o with simulation := { o.simulation with queueDepth } }
  | .simCompletions =>
    let completions ← readWide value
    return { o with simulation := { o.simulation with completions } }
  | .statsOutput => return { o with statsOutput := some (← readPath value) }
  | .logLevel => return { o with logLimit := ← readLogLimit value }
  | .softRefresh | .debug | .help | .version => throw .tooManyValues

def raise (o : Options) : Argument → Except UsageError Options
  | .softRefresh => .ok { o with softRefresh := true }
  | .debug => .ok { o with debug := true }
  | .help => .error .displayHelp
  | .version => .error .displayVersion
  | _ => .error .invalidValue

/-! ## Words -/

/-- The line up to some word. -/
structure Reading where
  options : Options
  seen : List Argument
  /-- The argument that was named last without an equals sign, and its value if that has come. -/
  pending : Option (Argument × Option String)
  deriving DecidableEq, Repr

/-- Marks an argument as set. Slaves may be given any number of times. -/
def Reading.mark (r : Reading) (argument : Argument) : Except UsageError Reading :=
  if r.seen.contains argument ∧ argument ≠ .slaves then .error .argumentConflict
  else .ok { r with seen := argument :: r.seen }

def Reading.set (r : Reading) (argument : Argument) (value : String) : Except UsageError Reading := do
  let r ← r.mark argument
  return { r with options := ← store r.options argument value }

/-- Looks at the value that has come for the argument named last. -/
def Reading.settle (r : Reading) : Except UsageError Reading :=
  match r.pending with
  | none => .ok r
  | some (_, none) => .error .invalidValue
  | some (argument, some value) => { r with pending := none }.set argument value

/-- Takes a named argument, with the value behind an equals sign if there was one. -/
def Reading.name (r : Reading) (argument : Argument) (value : Option String) :
    Except UsageError Reading := do
  match argument.isFlag, value with
  | true, some _ => throw .tooManyValues
  | true, none =>
    let r ← (← r.settle).mark argument
    return { r with options := ← raise r.options argument }
  | false, some value => (← r.settle).set argument value
  | false, none => return { ← r.settle with pending := some (argument, none) }

/-- Splits a text at its first equals sign. -/
def splitValue (text : List Char) : String × Option String :=
  let name := text.takeWhile (· ≠ '=')
  (String.ofList name,
    if name.length < text.length then some (String.ofList (text.drop (name.length + 1))) else none)

def Reading.word (r : Reading) (text : String) : Except UsageError Reading := do
  match text.toList with
  | '-' :: '-' :: rest =>
    let (name, value) := splitValue rest
    match Argument.named.lookup name with
    | some argument => r.name argument value
    | none => throw .unknownArgument
  | '-' :: 'h' :: _ => r.name .help none
  | '-' :: 'V' :: _ => r.name .version none
  | '-' :: _ :: _ => throw .unknownArgument
  | _ =>
    match r.pending with
    | some (argument, none) => return { r with pending := some (argument, some text) }
    | _ => throw .unknownArgument

/-- Takes the words one after the other. Two dashes end the arguments. -/
def Reading.words : Reading → List String → Except UsageError Reading
  | r, [] => .ok r
  | r, "--" :: rest => if rest.isEmpty then .ok r else .error .unknownArgument
  | r, text :: rest => do Reading.words (← r.word text) rest

def read (words : List String) : Except UsageError Options := do
  let r ← Reading.words ⟨.standard, [], none⟩ words
  return (← r.settle).options

end CommandLine

end Hashboard
