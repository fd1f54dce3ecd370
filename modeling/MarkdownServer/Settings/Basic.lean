import MarkdownServer.Address
import MarkdownServer.Http.Limits
import MarkdownServer.Wiki.Theme
/- The settings of the program. -/
set_option autoImplicit false

namespace MarkdownServer

inductive Transport where
  | http
  | stdio
deriving DecidableEq, Repr

def Transport.name : Transport → String
  | .http => "http"
  | .stdio => "stdio"

structure ServerSettings where
  transport : Transport := .http
  address : Address := .loopback 8080
  idleTimeout : Nat := Http.standardIdleTimeout
  sessions : Nat := Http.standardSessions
deriving DecidableEq, Repr

structure ConverterSettings where
  theme : Option String := none
  inputLimit : Nat := Rendering.defaultLimit
deriving DecidableEq, Repr

structure LogSettings where
  level : String := "warn"
deriving DecidableEq, Repr

structure Settings where
  server : ServerSettings := {}
  converter : ConverterSettings := {}
  logging : LogSettings := {}
deriving DecidableEq, Repr

namespace Settings

inductive Defect where
  | noInput
  | noSessions
  | noIdleTime
  | blankTheme
deriving DecidableEq, Repr

def Defect.message : Defect → String
  | .noInput => "converter.max_input_bytes must be greater than zero"
  | .noSessions => "server.max_sessions must be greater than zero"
  | .noIdleTime => "server.session_idle_timeout_secs must be greater than zero"
  | .blankTheme => "converter.default_theme must not be blank; omit it for no theme"

def validate (settings : Settings) : Except Defect Unit :=
  if settings.converter.inputLimit = 0 then .error .noInput
  else if settings.server.sessions = 0 then .error .noSessions
  else if settings.server.idleTimeout = 0 then .error .noIdleTime
  else if settings.converter.theme.any Text.allBlank then .error .blankTheme
  else .ok ()

def options (settings : Settings) : Wiki.Options :=
  (Wiki.Options.setTheme {} settings.converter.theme).setLimit settings.converter.inputLimit

def limits (settings : Settings) : Http.Limits :=
  ((Http.Limits.forInput settings.converter.inputLimit).setIdleTimeout
    (Http.seconds settings.server.idleTimeout)).setSessions settings.server.sessions

end Settings
end MarkdownServer
