import StackScheme.Text.Piece

/-! The tokens of a line. A semicolon ends the part of the line that counts, and brackets are set
apart from what they stand next to by spaces; then the tokens are the words that are there. -/
namespace StackScheme

inductive Token
  | openParen
  | closeParen
  | openBracket
  | closeBracket
  | word (text : String)
deriving DecidableEq

namespace Token

def isBracket (c : Char) : Bool :=
  c ∈ ['(', ')', '[', ']']

def ofPiece : List Char → Token
  | ['('] => .openParen
  | [')'] => .closeParen
  | ['['] => .openBracket
  | [']'] => .closeBracket
  | piece => .word (String.ofList piece)

def text : Token → String
  | .openParen => "("
  | .closeParen => ")"
  | .openBracket => "["
  | .closeBracket => "]"
  | .word text => text

/-- The line as far as its first semicolon. -/
def uncommented (line : String) : List Char :=
  line.toList.takeWhile (· ≠ ';')

/-- The text with a space on both sides of every bracket. -/
def padded (text : List Char) : List Char :=
  text.flatMap fun c => if isBracket c then [' ', c, ' '] else [c]

def ofLine (line : String) : List Token :=
  (Text.words (padded (uncommented line))).map ofPiece

/-- A word is an integer literal if it is zero or a row of ASCII digits that does not begin with
zero. -/
def isInteger (word : String) : Bool :=
  match word.toList with
  | [] => false
  | first :: rest => word = "0" || (first ≠ '0' && (first :: rest).all Char.isDigit)

end Token
end StackScheme
