import BlockWorld.Toml.Scalar

/-!
# TOML documents

A document is a list of statements: headers that open a table and keys that get a value in it. Each
statement adds to the tree of tables, and may be at odds with what is there.

* `value`: a value, with arrays and inline tables nested to a bounded depth.
* `Statement`, `statements`: the lines of a document.
* `Entries.define`, `Entries.openTable`, `Entries.openArray`: what a statement does to the tree.
* `Value.ofText?`: the document of a text. -/

namespace BlockWorld.Toml

open Reader

/-! ## The tree -/

/-- Changes the table at the end of `path` by `change`, which also learns how that table came to be.
Tables on the way are made if they do not exist. Through an array of headers the way leads into its
last table; with a dotted key no table named by a header may be entered. -/
def Entries.modifyAt (viaKey : Bool) (change : Origin → Entries → Option Entries) :
    (path : List String) → Origin → Entries → Option Entries
  | [], origin, entries => change origin entries
  | k :: path, _, entries =>
    match entries.lookup k with
    | none => do
      let origin := if viaKey then Origin.dotted else Origin.implied
      let inner ← Entries.modifyAt viaKey change path origin []
      return entries ++ [(k, .table origin inner)]
    | some (.table origin inner) => do
      guard (origin ≠ .inline)
      guard (!viaKey || origin ≠ .header)
      let inner ← Entries.modifyAt viaKey change path origin inner
      return Entries.set k (.table origin inner) entries
    | some (.array true items) =>
      match items.reverse with
      | .table origin inner :: before => do
        let inner ← Entries.modifyAt viaKey change path origin inner
        return Entries.set k (.array true (before.reverse ++ [.table origin inner])) entries
      | _ => none
    | some _ => none

/-- Gives a key its value. A key without dots goes into the table itself; one with dots goes into a
table that only dotted keys made. -/
def Entries.define (origin : Origin) (entries : Entries) (path : List String) (v : Value) :
    Option Entries := do
  let last ← path.getLast?
  let way := path.dropLast
  Entries.modifyAt true
    (fun origin entries =>
      if (origin = .dotted) = way.isEmpty then none
      else if (entries.lookup last).isSome then none
      else some (entries ++ [(last, v)]))
    way origin entries

/-- Opens the table of a header: a new one, or one that was only on the way so far. -/
def Entries.openTable (entries : Entries) (path : List String) : Option Entries := do
  let last ← path.getLast?
  Entries.modifyAt false
    (fun _ entries =>
      match entries.lookup last with
      | none => some (entries ++ [(last, .table .header [])])
      | some (.table .implied inner) => some (Entries.set last (.table .header inner) entries)
      | some _ => none)
    path.dropLast .header entries

/-- Opens the next table of an array of headers. -/
def Entries.openArray (entries : Entries) (path : List String) : Option Entries := do
  let last ← path.getLast?
  Entries.modifyAt false
    (fun _ entries =>
      match entries.lookup last with
      | none => some (entries ++ [(last, .array true [.table .header []])])
      | some (.array true items) =>
        some (Entries.set last (.array true (items ++ [.table .header []])) entries)
      | some _ => none)
    path.dropLast .header entries

/-! ## Values -/

def array (item : Reader Value) : Reader Value := do
  discard (char '[')
  let items ← sepBy (do gap; let v ← item; gap; return v) ','
  unless items.isEmpty do discard (option (char ','))
  gap
  discard (char ']')
  return .array false items

/-- A key with its value. -/
def keyValue (item : Reader Value) : Reader (List String × Value) := do
  let path ← key
  discard (char '=')
  blanks
  let v ← item
  return (path, v)

def inlineTable (item : Reader Value) : Reader Value := do
  discard (char '{')
  let pairs ← sepBy (do let pair ← keyValue item; blanks; return pair) ','
  blanks
  discard (char '}')
  let entries ← pairs.foldlM (fun entries (path, v) => Entries.define .inline entries path v) []
  return .table .inline entries

/-- Arrays and inline tables may be nested this deep. -/
def maxDepth : Nat := 79

def value : (depth : Nat) → Reader Value
  | 0 => scalar
  | depth + 1 => scalar <|> array (value depth) <|> inlineTable (value depth)

/-! ## Statements -/

inductive Statement where
  | openTable (path : List String)
  | openArray (path : List String)
  | define (path : List String) (v : Value)

def header : Reader Statement :=
  (do
    text "[["
    let path ← key
    text "]]"
    return .openArray path) <|> (do
    discard (char '[')
    let path ← key
    discard (char ']')
    return .openTable path)

/-- A line; `none` if there is nothing on it. -/
def statement : Reader (Option Statement) := do
  match ← peek with
  | some '#' => comment; newline <|> atEnd; return none
  | some '\n' => newline; return none
  | some '\r' => newline; return none
  | some '[' =>
    let s ← header
    lineEnd
    return some s
  | _ =>
    let (path, v) ← keyValue (value maxDepth)
    lineEnd
    return some (.define path v)

def statements : Reader (List Statement) := do
  blanks
  let lines ← many (do let s ← statement; blanks; return s)
  atEnd
  return lines.filterMap id

/-- A document under construction: its tree and the path of the table that is open. -/
structure Draft where
  entries : Entries := []
  current : List String := []

def Draft.add (d : Draft) : Statement → Option Draft
  | .openTable path => do return ⟨← d.entries.openTable path, path⟩
  | .openArray path => do return ⟨← d.entries.openArray path, path⟩
  | .define path v => do
    let entries ← Entries.modifyAt false (fun origin entries => entries.define origin path v)
      d.current .header d.entries
    return ⟨entries, d.current⟩

/-- The text without a byte order mark. -/
def withoutMark : List Char → List Char
  | '\ufeff' :: cs => cs
  | cs => cs

/-- The document that a text writes, if it writes one. -/
def Value.ofText? (s : String) : Option Value := do
  let (lines, _) ← statements (withoutMark s.toList)
  let draft ← lines.foldlM Draft.add {}
  return .table .header draft.entries

end BlockWorld.Toml
