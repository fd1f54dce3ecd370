import MarkdownServer.Http.Limits
import MarkdownServer.Log
import MarkdownServer.Session
/- The open sessions of the HTTP service. A session that goes unused too long is dropped, and the
   one that has gone unused longest makes room for a new one. -/
set_option autoImplicit false

namespace MarkdownServer.Http

structure Slot where
  id : String
  session : Session
  lastSeen : Nat
deriving DecidableEq, Repr

structure Store where
  slots : List Slot
  limits : Limits
deriving DecidableEq, Repr

namespace Store

def empty (limits : Limits) : Store :=
  ⟨[], limits⟩

def size (store : Store) : Nat :=
  store.slots.length

def ids (store : Store) : List String :=
  store.slots.map Slot.id

def find? (store : Store) (id : String) : Option Slot :=
  store.slots.find? fun slot => slot.id == id

def isIdle (limits : Limits) (now : Nat) (slot : Slot) : Bool :=
  limits.idleTimeout < now - slot.lastSeen

/-- A slot that was used least recently. Which one goes if several were is arbitrary in principle;
    here it is the first to be opened. -/
def oldest? : List Slot → Option Slot
  | [] => none
  | slot :: rest =>
    match oldest? rest with
    | none => some slot
    | some other => if other.lastSeen < slot.lastSeen then some other else some slot

def without (id : String) (slots : List Slot) : List Slot :=
  slots.filter fun slot => slot.id != id

def dropOldest (slots : List Slot) : List Slot :=
  match oldest? slots with
  | none => slots
  | some slot => without slot.id slots

def expire (store : Store) (now : Nat) : Store :=
  { store with slots := store.slots.filter fun slot => !isIdle store.limits now slot }

def makeRoom (store : Store) : Store :=
  { store with slots := Nat.repeat dropOldest (store.size + 1 - store.limits.sessions) store.slots }

def insert (store : Store) (id : String) (session : Session) (now : Nat) : Store :=
  let store := (store.expire now).makeRoom
  { store with slots := without id store.slots ++ [⟨id, session, now⟩] }

def remove (store : Store) (id : String) : Bool × Store :=
  ((store.find? id).isSome, { store with slots := without id store.slots })

def modify (store : Store) (id : String) (change : Slot → Slot) : Store :=
  { store with slots := store.slots.map fun slot => if slot.id == id then change slot else slot }

def touch (store : Store) (id : String) (now : Nat) : Option Session × Store :=
  match store.find? id with
  | none => (none, store)
  | some slot =>
    if isIdle store.limits now slot then (none, (store.remove id).2)
    else (some slot.session, store.modify id fun slot => { slot with lastSeen := now })

def update (store : Store) (id : String) (session : Session) : Store :=
  store.modify id fun slot => { slot with session }

def insertLog (store : Store) (now : Nat) : List Log.Record :=
  let kept := store.expire now
  let idle := store.size - kept.size
  let dropped := kept.ids.filter fun id => !kept.makeRoom.ids.contains id
  (if idle = 0 then [] else [.info "Dropped idle sessions" [("expired", .plain (toString idle))]]) ++
    dropped.map fun id =>
      .warn "Session limit reached, dropping least recently used session" [("session", .plain id)]

def touchLog (store : Store) (id : String) (now : Nat) : List Log.Record :=
  if (store.find? id).isSome && (store.touch id now).1.isNone then
    [.info "Session expired" [("session", .quoted id)]]
  else []

end Store
end MarkdownServer.Http
