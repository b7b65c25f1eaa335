import RecordViews.Text.Category

/-!
The characters that patterns know. Names and texts follow the newest edition of the character
tables, patterns the one before it: to a pattern, the characters that came last are unassigned, and
the letter whose case was dropped with them still is a small letter.
-/

namespace RecordViews.Pattern

open Text (CodePoints Category)

def newcomers : CodePoints :=
  CodePoints.ofGaps <| String.join [
    "2191 1 972 1 127 1 3570 15 2 12 1493 1 2772 1 31799 2 2 1 1 1 28 1 21457 16 445 2 54 7 2929 ",
    "26 1387 3 8 9 33 2 3172 8 584 44 4 10 20662 25 2 25 286 5 6145 8 1289 22 97 115 16135 3 445 ",
    "23 15 17 6095 31 1 22 8 2 4056 1 158 4 341 9 379 4 50 1 3 1 57 1 4 1 28 1 4 1 266 1 47935 6 ",
    "5986 12 21762 4298"]

def known (s : CodePoints) : CodePoints :=
  s.diff newcomers

def formerSmall : CodePoints :=
  CodePoints.singleton 0x295

def points (ks : List Category) : CodePoints :=
  let steady := (known (Category.points ks)).diff formerSmall
  let small := if ks.contains .lowerLetter then steady.union formerSmall else steady
  if ks.contains .unassigned then small.union newcomers else small

def alphabetic : CodePoints :=
  known Text.alphabetic

def uppercase : CodePoints :=
  known Text.uppercase

def lowercase : CodePoints :=
  (known Text.lowercase).union formerSmall

def extenders : CodePoints :=
  known Text.extenders

end RecordViews.Pattern
