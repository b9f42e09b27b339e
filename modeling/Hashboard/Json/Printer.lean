import Hashboard.Bytes
import Hashboard.Json

/-!
# Printing JSON

A document is printed either on one line without blanks, or spread over lines that are indented by two
blanks for every level.
-/

namespace Hashboard.Json

/-! ## Strings -/

def escape (c : Char) : String :=
  match c with
  | '"' => "\\\""
  | '\\' => "\\\\"
  | '\n' => "\\n"
  | '\t' => "\\t"
  | '\r' => "\\r"
  | '\x08' => "\\b"
  | '\x0c' => "\\f"
  | c => if c.toNat < 32 then "\\u" ++ Bytes.hexNat 4 c.toNat else c.toString

def quoted (text : String) : String :=
  "\"" ++ String.join (text.toList.map escape) ++ "\""

/-! ## Documents -/

/-- What stands between the parts of a document. -/
structure Spacing where
  /-- In front of each item, and in front of the bracket behind the last one. -/
  newline : (depth : Nat) → String
  /-- Behind the name of a field. -/
  colon : String

def Spacing.none : Spacing where
  newline _ := ""
  colon := ":"

def Spacing.indented : Spacing where
  newline depth := "\n".pushn ' ' (2 * depth)
  colon := ": "

def enclosed (spacing : Spacing) (depth : Nat) (opening closing : String) (items : List String) :
    String :=
  if items.isEmpty then
    opening ++ closing
  else
    let newline := spacing.newline (depth + 1)
    opening ++ newline ++ String.intercalate ("," ++ newline) items ++ spacing.newline depth ++ closing

mutual

/-- The text of a value that stands `depth` levels deep. -/
def render (spacing : Spacing) (depth : Nat) : Json → String
  | null => "null"
  | bool value => if value then "true" else "false"
  | number text => text
  | string text => quoted text
  | array items => enclosed spacing depth "[" "]" (renderItems spacing (depth + 1) items)
  | object fields => enclosed spacing depth "\x7b" "\x7d" (renderFields spacing (depth + 1) fields)

def renderItems (spacing : Spacing) (depth : Nat) : List Json → List String
  | [] => []
  | item :: rest => render spacing depth item :: renderItems spacing depth rest

def renderFields (spacing : Spacing) (depth : Nat) : List (String × Json) → List String
  | [] => []
  | (name, value) :: rest =>
    (quoted name ++ spacing.colon ++ render spacing depth value)
      :: renderFields spacing depth rest

end

def compact (document : Json) : String :=
  document.render .none 0

def pretty (document : Json) : String :=
  document.render .indented 0

end Hashboard.Json
