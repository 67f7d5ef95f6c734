/-!
# TOML values

* `Value`: a value of a document. Tables and arrays remember how they came to be, since that decides
  whether later lines may add to them.
* `Origin`: how a table came to be.
* `Entries`: the keys of a table with their values, in the order of definition. -/

namespace BlockWorld.Toml

inductive Origin where
  /-- Written in braces: complete as it stands. -/
  | inline
  /-- Named by a header. -/
  | header
  /-- On the way to a table named by a header. -/
  | implied
  /-- On the way to a key with dots. -/
  | dotted
deriving DecidableEq, Repr

inductive Value where
  | string (s : String)
  | integer (n : Int64)
  | float (x : Float)
  | boolean (b : Bool)
  /-- A date, a time or both. -/
  | moment
  /-- `growing` arrays are built by headers in double brackets. -/
  | array (growing : Bool) (items : List Value)
  | table (origin : Origin) (entries : List (String × Value))

instance : Inhabited Value := ⟨.boolean false⟩

abbrev Entries := List (String × Value)

/-- Gives `key` a new value; it takes the place of the old one. -/
def Entries.set (key : String) (v : Value) : Entries → Entries
  | [] => [(key, v)]
  | (k, old) :: rest => if k == key then (k, v) :: rest else (k, old) :: Entries.set key v rest

end BlockWorld.Toml
