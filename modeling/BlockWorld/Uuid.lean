import BlockWorld.Hex

/-!
# Universally unique identifiers

An identifier is 128 bits in two halves. Its text is 32 hexadecimal digits in groups of 8, 4, 4, 4
and 12, joined by hyphens; either case is read, lower case is written.

* `Uuid.parse`: reads a text, `none` for anything but the five groups.
* `Uuid.display`: writes the text. -/

namespace BlockWorld

structure Uuid where
  most : UInt64
  least : UInt64
deriving DecidableEq, Repr, Inhabited

namespace Uuid

def zero : Uuid := ⟨0, 0⟩

/-- The groups between the hyphens of a text; there is always at least one. -/
def groups : List Char → List (List Char)
  | [] => [[]]
  | c :: cs =>
    if c = '-' then [] :: groups cs
    else
      match groups cs with
      | [] => [[c]]
      | g :: gs => (c :: g) :: gs

/-- How many digits each group has. -/
def groupLengths : List Nat := [8, 4, 4, 4, 12]

def parse (s : String) : Option Uuid :=
  let gs := groups s.toList
  if gs.map List.length = groupLengths then
    (gs.flatten.mapM Hex.digit?).map fun ds =>
      ⟨UInt64.ofNat (Hex.value (ds.take 16)), UInt64.ofNat (Hex.value (ds.drop 16))⟩
  else none

def display (u : Uuid) : String :=
  let hi := u.most.toNat
  let lo := u.least.toNat
  String.ofList (Hex.text 8 (hi >>> 32) ++ '-' :: Hex.text 4 (hi >>> 16) ++ '-' :: Hex.text 4 hi ++
    '-' :: Hex.text 4 (lo >>> 48) ++ '-' :: Hex.text 12 lo)

end Uuid

end BlockWorld
