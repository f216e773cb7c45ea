import StackScheme.Text.Blank

/-! Cutting text at blanks. A run holds neighbouring characters that belong together; the blank runs
are what separates the pieces. -/
namespace StackScheme.Text

/-- Neighbours stay together when both satisfy `joins`; any other character is a run by itself. -/
def runs (joins : Char → Bool) (text : List Char) : List (List Char) :=
  text.splitBy fun c d => joins c && joins d

/-- The runs, less those that are blank. -/
def pieces (joins : Char → Bool) (text : List Char) : List (List Char) :=
  (runs joins text).filter fun run => !run.all isBlank

/-- The maximal stretches without blanks. -/
def words (text : List Char) : List (List Char) :=
  pieces (fun c => !isBlank c) text

/-- The text without the blanks at its two ends. -/
def trim (text : List Char) : List Char :=
  ((text.dropWhile isBlank).reverse.dropWhile isBlank).reverse

end StackScheme.Text
