import BlockWorld.Packet

/-!
# Attributes

The attributes of a player, and whether one has changed since the client was last told.

* `AttributeMap.playerDefaults`: the four attributes of a player.
* `clampToBounds`: a value moved into its bounds.
* `AttributeMap.set`: changes a value, kept within the bounds of its attribute.
* `AttributeMap.takeDirty`: asks for a change and forgets it. -/

namespace BlockWorld

/-- The nearer bound if `value` lies outside `min` to `max`. A value that equals a bound, and a NaN,
stay as they are. -/
def clampToBounds (value min max : Float32) : Float32 :=
  if value < min then min else if max < value then max else value

namespace AttributeName

def health : String := "minecraft:health"
def movement : String := "minecraft:movement"
def hunger : String := "minecraft:player.hunger"
def saturation : String := "minecraft:player.saturation"

end AttributeName

structure AttributeMap where
  entries : List AttributeEntry
  dirty : Bool
deriving DecidableEq

namespace AttributeMap

/-- The greatest finite value. -/
def greatest : Float32 := Float32.ofBits 0x7f7fffff

def playerDefaults : AttributeMap where
  entries :=
    [.initial AttributeName.health 0 20 20,
     .initial AttributeName.movement 0 greatest 0.1,
     .initial AttributeName.hunger 0 20 20,
     .initial AttributeName.saturation 0 20 5]
  dirty := false

instance : Inhabited AttributeMap := ⟨playerDefaults⟩

def entry? (m : AttributeMap) (name : String) : Option AttributeEntry :=
  m.entries.find? (·.name == name)

def get? (m : AttributeMap) (name : String) : Option Float32 := (m.entry? name).map (·.current)

/-- Applies `f` to the first entry called `name`. -/
def modifyFirst (name : String) (f : AttributeEntry → AttributeEntry) :
    List AttributeEntry → List AttributeEntry
  | [] => []
  | e :: es => if e.name == name then f e :: es else e :: modifyFirst name f es

/-- Sets `name` to the clamped `value`; `false` if there is no such attribute. A value that compares
equal to the current one is not stored and is no change. -/
def set (m : AttributeMap) (name : String) (value : Float32) : Bool × AttributeMap :=
  match m.entry? name with
  | none => (false, m)
  | some e =>
    let value := clampToBounds value e.min e.max
    if e.current != value then
      (true, ⟨modifyFirst name (fun e => { e with current := value }) m.entries, true⟩)
    else (true, m)

def takeDirty (m : AttributeMap) : Bool × AttributeMap := (m.dirty, { m with dirty := false })

end AttributeMap

end BlockWorld
