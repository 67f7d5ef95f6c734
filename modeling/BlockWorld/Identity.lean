import BlockWorld.Packet

/-!
# Identities

Who a player is: what the login said, of which the display name and the skin may change later.

* `Identity.ofLogin`: the identity a login gives; the display name starts as the login name. -/

namespace BlockWorld

structure Identity where
  name : String
  displayName : String
  uuid : Uuid
  xuid : String
  clientId : Int64
  locale : String
  skin : Skin
deriving DecidableEq, Inhabited

def Identity.ofLogin (login : Login) : Identity where
  name := login.username
  displayName := login.username
  uuid := login.clientUuid
  xuid := login.clientXuid
  clientId := login.clientId
  locale := login.language
  skin := login.skin

end BlockWorld
