/-! Lines of text. A carriage return followed by a newline ends one line, and a break at the end of
the text opens no further line. -/
namespace StackScheme.Text

def isLineBreak (c : Char) : Bool :=
  c ∈ ['\n', '\x0B', '\x0C', '\r', '\x1C', '\x1D', '\x1E', '\u0085', '\u2028', '\u2029']

/-- The lines of a text whose first characters, last one first, are already in hand. -/
def linesFrom (held : List Char) : List Char → List String
  | [] => if held.isEmpty then [] else [String.ofList held.reverse]
  | '\r' :: '\n' :: rest => String.ofList held.reverse :: linesFrom [] rest
  | c :: rest =>
    if isLineBreak c then String.ofList held.reverse :: linesFrom [] rest
    else linesFrom (c :: held) rest

def lines (text : String) : List String :=
  linesFrom [] text.toList

/-- The text with newlines for its carriage returns, after the characters already in hand, last one
first. -/
def unifyFrom (held : List Char) : List Char → List Char
  | [] => held.reverse
  | '\r' :: '\n' :: rest => unifyFrom ('\n' :: held) rest
  | c :: rest => unifyFrom ((if c = '\r' then '\n' else c) :: held) rest

/-- Files may end their lines in the manner of any system; a reader sees newlines only. -/
def unifyNewlines (text : String) : String :=
  String.ofList (unifyFrom [] text.toList)

end StackScheme.Text
