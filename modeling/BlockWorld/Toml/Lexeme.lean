import BlockWorld.Hex
import BlockWorld.Toml.Reader

/-!
# TOML blanks, keys and strings

* `blanks`, `newline`, `comment`, `lineEnd`, `gap`: what stands between the parts of a document.
* `key`: a key, possibly with dots.
* `string`: a string in any of the four notations. -/

namespace BlockWorld.Toml

open Reader

def isBlank (c : Char) : Bool := c == ' ' || c == '\t'

/-- A character of a comment: a tab, a printable ASCII character or anything beyond ASCII. -/
def isPlain (c : Char) : Bool := c == '\t' || (' ' ≤ c && c ≤ '~') || '\x80' ≤ c

def blanks : Reader Unit := discard (takeWhile isBlank)

/-- A line feed, alone or after a carriage return. -/
def newline : Reader Unit := discard (char '\n') <|> text "\r\n"

def comment : Reader Unit := do
  discard (char '#')
  discard (takeWhile isPlain)

/-- Blanks and a comment up to the end of the line or of the document. -/
def lineEnd : Reader Unit := do
  blanks
  discard (option comment)
  newline <|> atEnd

/-- Blanks, comments and newlines, as they may stand in an array. -/
def gap : Reader Unit :=
  discard (many (discard (takeWhile1 isBlank) <|> newline <|> (do comment; newline)))

/-! ## Strings -/

/-- The character whose code point is written in exactly `width` hexadecimal digits. -/
def codePoint (width : Nat) : Reader Char := fun cs => do
  let digits ← (cs.take width).mapM Hex.digit?
  guard (digits.length = width)
  let n := Hex.value digits
  guard n.isValidChar
  return (Char.ofNat n, cs.drop width)

/-- What follows the backslash of an escape. -/
def escape : Reader Char := do
  match ← satisfy fun _ => true with
  | 'b' => return '\x08'
  | 't' => return '\t'
  | 'n' => return '\n'
  | 'f' => return '\x0c'
  | 'r' => return '\r'
  | '"' => return '"'
  | '\\' => return '\\'
  | 'u' => codePoint 4
  | 'U' => codePoint 8
  | _ => failure

def isBasicChar (c : Char) : Bool := isPlain c && c != '"' && c != '\\'

def isLiteralChar (c : Char) : Bool := isPlain c && c != '\''

def escaped : Reader Char := do
  discard (char '\\')
  escape

def basicString : Reader String := do
  discard (char '"')
  let pieces ← many (takeWhile1 isBasicChar <|> (do return [← escaped]))
  discard (char '"')
  return String.ofList pieces.flatten

def literalString : Reader String := do
  discard (char '\'')
  let cs ← takeWhile isLiteralChar
  discard (char '\'')
  return String.ofList cs

/-- One or two quotes that do not close a string of several lines. -/
def innerQuotes (quote : Char) : Reader (List Char) := fun cs =>
  let run := cs.takeWhile (· == quote)
  if 0 < run.length && run.length < 3 then some (run, cs.dropWhile (· == quote)) else none

/-- The three quotes that close a string of several lines, and up to two more of its content before
them. -/
def closingQuotes (quote : Char) : Reader (List Char) := fun cs =>
  let run := cs.takeWhile (· == quote)
  if 3 ≤ run.length && run.length ≤ 5 then
    some (run.drop 3, cs.dropWhile (· == quote))
  else none

/-- A backslash at the end of a line swallows all blanks and newlines up to the next character. -/
def lineContinuation : Reader (List Char) := do
  discard (char '\\')
  blanks
  newline
  discard (many (discard (takeWhile1 isBlank) <|> newline))
  return []

/-- A newline of a string of several lines counts as a line feed. -/
def innerNewline : Reader (List Char) := do
  newline
  return ['\n']

def multilineString (quote : Char) (piece : Reader (List Char)) : Reader String := do
  discard (char quote)
  discard (char quote)
  discard (char quote)
  discard (option newline)
  let pieces ← many (piece <|> innerNewline <|> innerQuotes quote)
  let rest ← closingQuotes quote
  return String.ofList (pieces.flatten ++ rest)

def multilineBasic : Reader String :=
  multilineString '"'
    (takeWhile1 isBasicChar <|> lineContinuation <|> (do return [← escaped]))

def multilineLiteral : Reader String := multilineString '\'' (takeWhile1 isLiteralChar)

def string : Reader String :=
  multilineBasic <|> basicString <|> multilineLiteral <|> literalString

/-! ## Keys -/

def isBareKeyChar (c : Char) : Bool := c.isAlphanum || c == '_' || c == '-'

def simpleKey : Reader String :=
  basicString <|> literalString <|> String.ofList <$> takeWhile1 isBareKeyChar

/-- A path of keys may not be longer than this. -/
def maxKeyLength : Nat := 79

/-- A key: simple keys joined by dots, with blanks around each. -/
def key : Reader (List String) := do
  let path ← sepBy1 (do blanks; let k ← simpleKey; blanks; return k) '.'
  guard (path.length ≤ maxKeyLength)
  return path

end BlockWorld.Toml
