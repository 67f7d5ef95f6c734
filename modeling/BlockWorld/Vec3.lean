import BlockWorld.Decimal.Shortest

/-!
# Points and angles

Positions and view angles are triples of 32-bit floats. `==` compares them as floats do: a NaN
differs from itself and the two zeros are equal; `=` compares the values themselves.

* `Vec3`, `Vec3.isFinite`, `Vec3.display`: a point or displacement.
* `Rotation`: pitch, yaw and head yaw in degrees. -/

namespace BlockWorld

structure Vec3 where
  x : Float32
  y : Float32
  z : Float32
deriving BEq, DecidableEq

namespace Vec3

def zero : Vec3 := ⟨0, 0, 0⟩

instance : Inhabited Vec3 := ⟨zero⟩

instance : Add Vec3 := ⟨fun a b => ⟨a.x + b.x, a.y + b.y, a.z + b.z⟩⟩

instance : Sub Vec3 := ⟨fun a b => ⟨a.x - b.x, a.y - b.y, a.z - b.z⟩⟩

def isFinite (v : Vec3) : Bool := v.x.isFinite && v.y.isFinite && v.z.isFinite

/-- The three coordinates in parentheses, each in its shortest decimal text. -/
def display (v : Vec3) : String :=
  "(" ++ Decimal.shortest v.x ++ ", " ++ Decimal.shortest v.y ++ ", " ++ Decimal.shortest v.z ++ ")"

end Vec3

structure Rotation where
  pitch : Float32
  yaw : Float32
  headYaw : Float32
deriving BEq, DecidableEq

namespace Rotation

def zero : Rotation := ⟨0, 0, 0⟩

instance : Inhabited Rotation := ⟨zero⟩

instance : Add Rotation := ⟨fun a b => ⟨a.pitch + b.pitch, a.yaw + b.yaw, a.headYaw + b.headYaw⟩⟩

end Rotation

end BlockWorld
