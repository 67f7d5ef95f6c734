/-!
# Readers

A reader takes something off the front of a list of characters or fails. A failed alternative leaves
the input as it was.

* `Reader`: the type; `Reader.satisfy`, `Reader.char`, `Reader.text`, `Reader.takeWhile`: the leaves.
* `Reader.many`, `Reader.sepBy`, `Reader.sepBy1`: repetition. -/

namespace BlockWorld.Toml

abbrev Reader := StateT (List Char) Option

namespace Reader

variable {α : Type}

/-- The next character, which stays in the input. -/
def peek : Reader (Option Char) := fun cs => some (cs.head?, cs)

def satisfy (p : Char → Bool) : Reader Char
  | [] => none
  | c :: cs => if p c then some (c, cs) else none

def char (c : Char) : Reader Char := satisfy (· == c)

/-- Exactly the characters of `s`. -/
def text (s : String) : Reader Unit := s.toList.forM fun c => discard (char c)

def takeWhile (p : Char → Bool) : Reader (List Char) :=
  fun cs => some (cs.takeWhile p, cs.dropWhile p)

def takeWhile1 (p : Char → Bool) : Reader (List Char) := do
  let c ← satisfy p
  let cs ← takeWhile p
  return c :: cs

def option (r : Reader α) : Reader (Option α) := (some <$> r) <|> pure none

/-- Nothing is left. -/
def atEnd : Reader Unit
  | [] => some ((), [])
  | _ :: _ => none

/-- Applies `r` at most `n` times, until it fails. -/
def manyUpTo (r : Reader α) : Nat → Reader (List α)
  | 0 => pure []
  | n + 1 => (do
      let a ← r
      let as ← manyUpTo r n
      return a :: as) <|> pure []

/-- Applies `r`, which takes at least one character each time, until it fails. -/
def many (r : Reader α) : Reader (List α) := fun cs => manyUpTo r cs.length cs

def sepBy1 (r : Reader α) (separator : Char) : Reader (List α) := do
  let a ← r
  let as ← many (do discard (char separator); r)
  return a :: as

def sepBy (r : Reader α) (separator : Char) : Reader (List α) := sepBy1 r separator <|> pure []

end Reader

end BlockWorld.Toml
