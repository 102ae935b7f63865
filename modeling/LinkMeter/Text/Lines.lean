/-!
# Lines, pieces and columns

A line ends at a line feed, and a carriage return right before that line feed
belongs to the ending.  A last line without an ending counts if it holds
anything.
-/

namespace LinkMeter.Text

/-- A line without the carriage return that ends it. -/
def dropReturn (line : List Char) : List Char :=
  if line.getLast? = some '\r' then line.dropLast else line

/-- The lines of a text; `line` is the part of the current line read so far. -/
def linesFrom (line : List Char) : List Char → List (List Char)
  | [] => if line.isEmpty then [] else [line]
  | c :: rest =>
    if c = '\n' then dropReturn line :: linesFrom [] rest else linesFrom (line ++ [c]) rest

/-- The lines of a text, without their endings. -/
def lines (text : List Char) : List (List Char) := linesFrom [] text

/-- The parts of a text before and after the first occurrence of a character. -/
def splitAtFirst (mark : Char) : List Char → Option (List Char × List Char)
  | [] => none
  | c :: rest =>
    if c = mark then some ([], rest)
    else (splitAtFirst mark rest).map fun (before, after) => (c :: before, after)

/-- A text set to the right of a column of the given width. -/
def padLeft (width : Nat) (text : String) : String :=
  String.ofList (List.replicate (width - text.length) ' ') ++ text

/-- A text set to the left of a column of the given width. -/
def padRight (width : Nat) (text : String) : String :=
  text ++ String.ofList (List.replicate (width - text.length) ' ')

end LinkMeter.Text
