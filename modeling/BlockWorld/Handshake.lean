/-!
# The login handshake

The states a connection goes through from its first login packet on.

* `HandshakeState`, `HandshakeState.display`: the states and how they are written. -/

namespace BlockWorld

inductive HandshakeState where
  | awaitingLogin
  | nameChecked
  | sessionCreated
  | capabilitySent
  | rejected
deriving DecidableEq, Repr

def HandshakeState.display : HandshakeState → String
  | .awaitingLogin => "awaiting-login"
  | .nameChecked => "name-checked"
  | .sessionCreated => "session-created"
  | .capabilitySent => "capability-sent"
  | .rejected => "rejected"

end BlockWorld
