import MarkdownServer.Protocol.Version
/- The life of one client's session. -/
set_option autoImplicit false

namespace MarkdownServer

open Protocol (Version)

inductive Session where
  | awaiting
  | initialising (version : Version)
  | running (version : Version)
  | shuttingDown (version : Option Version)
deriving DecidableEq, Repr

namespace Session

def version? : Session → Option Version
  | .awaiting => none
  | .initialising v => some v
  | .running v => some v
  | .shuttingDown v => v

def isRunning : Session → Bool
  | .running _ => true
  | _ => false

def isShutDown : Session → Bool
  | .shuttingDown _ => true
  | _ => false

def shutDown (session : Session) : Session :=
  .shuttingDown session.version?

def confirm : Session → Session
  | .initialising v => .running v
  | session => session

end Session
end MarkdownServer
