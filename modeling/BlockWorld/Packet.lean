import BlockWorld.Uuid
import BlockWorld.Vec3

/-!
# Packets

The messages between a client and the server, as values. `==` compares their floats as floats do.

* `Packet`: a packet of one of the known kinds, or an unknown one of which only the id is kept.
* `Packet.id`: the number that says which kind a packet is.
* `Login`, `PlayStatus`, `MovePlayer`, …: the kinds and how the server builds them. -/

namespace BlockWorld

/-- Uninterpreted bytes. -/
abbrev Bytes := List UInt8

/-- What a player looks like. -/
structure Skin where
  skinId : String := ""
  skinData : Bytes := []
  capeData : Bytes := []
  geometryName : String := ""
  geometryData : String := ""
deriving DecidableEq, Repr, Inhabited

structure Login where
  protocolVersion : Int32 := 0
  username : String := ""
  clientUuid : Uuid := Uuid.zero
  clientXuid : String := ""
  clientId : Int64 := 0
  language : String := ""
  skin : Skin := {}
deriving DecidableEq, Inhabited

inductive PlayStatus where
  | loginSuccess
  | failedClient
  | failedServer
  | playerSpawn
  | failedServerFull
deriving DecidableEq, Repr

/-- The number of a status on the wire. -/
def PlayStatus.code : PlayStatus → Int32
  | .loginSuccess => 0
  | .failedClient => 1
  | .failedServer => 2
  | .playerSpawn => 3
  | .failedServerFull => 7

structure Disconnect where
  hideScreen : Bool
  message : String
deriving DecidableEq

structure ResourcePack where
  packId : Uuid
  version : String
  size : UInt64
deriving DecidableEq

structure ResourcePacksInfo where
  mustAccept : Bool := false
  hasScripts : Bool := false
  packs : List ResourcePack := []
deriving DecidableEq

inductive TextKind where
  | raw
  | chat
  | system
deriving DecidableEq, Repr

structure Text where
  kind : TextKind
  sourceName : String
  message : String
deriving DecidableEq

/-- A message without a source. -/
def Text.raw (message : String) : Text := ⟨.raw, "", message⟩

inductive MoveMode where
  | normal
  | reset
  | teleport
  | rotation
deriving DecidableEq, Repr

/-- The number of a mode on the wire. -/
def MoveMode.code : MoveMode → UInt8
  | .normal => 0
  | .reset => 1
  | .teleport => 2
  | .rotation => 3

structure MovePlayer where
  runtimeEntityId : UInt64
  position : Vec3
  rotation : Rotation
  mode : MoveMode := .normal
  onGround : Bool
  tick : UInt64 := 0
deriving BEq, DecidableEq

/-- One attribute of an entity with its bounds. -/
structure AttributeEntry where
  name : String
  min : Float32
  max : Float32
  current : Float32
  default : Float32
deriving BEq, DecidableEq

/-- An attribute at its default value. -/
def AttributeEntry.initial (name : String) (min max default : Float32) : AttributeEntry :=
  { name, min, max, current := default, default }

structure UpdateAttributes where
  entityRuntimeId : UInt64
  attributes : List AttributeEntry
  tick : UInt64
deriving BEq, DecidableEq

structure LevelChunk where
  chunkX : Int32
  chunkZ : Int32
  dimensionId : Int32
  payload : Bytes
deriving DecidableEq

/-- An empty column of the main dimension. -/
def LevelChunk.column (x z : Int32) : LevelChunk := ⟨x, z, 0, []⟩

structure RequestChunkRadius where
  chunkRadius : Int32
  maxChunkRadius : Int32
deriving DecidableEq

structure PlayerSkin where
  uuid : Uuid
  skin : Skin
  newSkinName : String
  oldSkinName : String
deriving DecidableEq

inductive Packet where
  | login (packet : Login)
  | playStatus (status : PlayStatus)
  | disconnect (packet : Disconnect)
  | resourcePacksInfo (packet : ResourcePacksInfo)
  | text (packet : Text)
  | removeEntity (uniqueId : Int64)
  | movePlayer (packet : MovePlayer)
  | updateAttributes (packet : UpdateAttributes)
  | levelChunk (packet : LevelChunk)
  | requestChunkRadius (packet : RequestChunkRadius)
  | chunkRadiusUpdated (chunkRadius : Int32)
  | playerSkin (packet : PlayerSkin)
  | setLocalPlayerAsInitialized (runtimeId : UInt64)
  | unknown (id : UInt32)
deriving BEq, DecidableEq

/-! ## Packet ids -/

namespace PacketId

def login : UInt32 := 0x01
def playStatus : UInt32 := 0x02
def disconnect : UInt32 := 0x05
def resourcePacksInfo : UInt32 := 0x06
def text : UInt32 := 0x09
def removeEntity : UInt32 := 0x0E
def movePlayer : UInt32 := 0x13
def updateAttributes : UInt32 := 0x1D
def levelChunk : UInt32 := 0x3A
def requestChunkRadius : UInt32 := 0x45
def chunkRadiusUpdated : UInt32 := 0x46
def playerSkin : UInt32 := 0x5D
def setLocalPlayerAsInitialized : UInt32 := 0x71

end PacketId

namespace Packet

def id : Packet → UInt32
  | .login _ => PacketId.login
  | .playStatus _ => PacketId.playStatus
  | .disconnect _ => PacketId.disconnect
  | .resourcePacksInfo _ => PacketId.resourcePacksInfo
  | .text _ => PacketId.text
  | .removeEntity _ => PacketId.removeEntity
  | .movePlayer _ => PacketId.movePlayer
  | .updateAttributes _ => PacketId.updateAttributes
  | .levelChunk _ => PacketId.levelChunk
  | .requestChunkRadius _ => PacketId.requestChunkRadius
  | .chunkRadiusUpdated _ => PacketId.chunkRadiusUpdated
  | .playerSkin _ => PacketId.playerSkin
  | .setLocalPlayerAsInitialized _ => PacketId.setLocalPlayerAsInitialized
  | .unknown id => id

def isLogin : Packet → Bool
  | .login _ => true
  | _ => false

end Packet

end BlockWorld
