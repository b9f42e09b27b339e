/-!
# The banner

What the program shows when it starts: its logo and title, and below them a table of what it is going to
do.
-/

namespace Hashboard.Banner

def width : Nat := 84

/-- The columns that the keys of the table take. -/
def keyWidth : Nat := 14

def logo : List String := [
  "  _  __ _   _   ____ ",
  " | |/ /| \\ | | / ___|",
  " | ' / |  \\| || |    ",
  " | . \\ | |\\  || |___ ",
  " |_|\\_\\|_| \\_| \\____|"]

/-- A line in the middle of the banner; an odd blank goes to the right. -/
def centre (line : String) : String :=
  let blank := width - line.length
  "".pushn ' ' (blank / 2) ++ line.pushn ' ' (blank - blank / 2)

def row (key value : String) : String :=
  let column := (key ++ ":").pushn ' ' (keyWidth - (key.length + 1))
  s!"  {column} {value}"

def lines (title subtitle : String) (rows : List (String × String)) : List String :=
  let border := "".pushn '=' width
  [["", border], logo.map centre, ["".pushn '-' width, centre title, centre subtitle, border],
    rows.map fun (key, value) => row key value, [border, ""]].flatten

end Hashboard.Banner
