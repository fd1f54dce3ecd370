import MarkdownServer.Rendering
/- The limits of the HTTP service. -/
set_option autoImplicit false

namespace MarkdownServer.Http

def greatestSize : Nat := 18446744073709551615

def envelope : Nat := 64 * 1024

/-- The size of a body that carries that many bytes of Markdown: escapes may double them. -/
def bodyLimitFor (inputLimit : Nat) : Nat :=
  min (2 * inputLimit + envelope) greatestSize

/-- Times are in nanoseconds. -/
def milliseconds (n : Nat) : Nat := n * 1000000

def seconds (n : Nat) : Nat := n * 1000000000

def standardIdleTimeout : Nat := 30 * 60

def standardSessions : Nat := 1024

structure Limits where
  body : Nat
  idleTimeout : Nat
  sessions : Nat
  positive : 0 < sessions
deriving DecidableEq, Repr

namespace Limits

def forInput (inputLimit : Nat) : Limits :=
  ⟨bodyLimitFor inputLimit, seconds standardIdleTimeout, standardSessions, by decide⟩

def standard : Limits := forInput Rendering.defaultLimit

def setIdleTimeout (limits : Limits) (time : Nat) : Limits :=
  { limits with idleTimeout := time }

def setSessions (limits : Limits) (count : Nat) : Limits :=
  { limits with sessions := max 1 count, positive := by omega }

end Limits
end MarkdownServer.Http
