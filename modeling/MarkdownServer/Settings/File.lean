import MarkdownServer.Settings.Format
import MarkdownServer.Text.Utf8
/- Settings from a file. -/
set_option autoImplicit false

namespace MarkdownServer.Settings

inductive ReadFault where
  | notText
  | directory
  | other (reason : String)
deriving DecidableEq, Repr

def ReadFault.message : ReadFault → String
  | .notText => "stream did not contain valid UTF-8"
  | .directory => "Is a directory (os error 21)"
  | .other reason => reason

inductive Entry where
  | missing
  | file (bytes : List UInt8)
  | unreadable (fault : ReadFault)
deriving Repr

inductive Fault where
  | notFound (path : String)
  | unreadable (path : String) (cause : ReadFault)
  | malformed (path : String) (cause : Json.Rejection)
  | invalid (defect : Defect)
deriving DecidableEq, Repr

def Fault.message : Fault → String
  | .notFound path => "configuration file not found: " ++ path
  | .unreadable path _ => "failed to read configuration file: " ++ path
  | .malformed path _ => "failed to parse configuration file: " ++ path
  | .invalid defect => "configuration validation failed: " ++ defect.message

def Fault.cause? : Fault → Option String
  | .unreadable _ cause => some cause.message
  | .malformed _ cause => some cause.message
  | .notFound _ | .invalid _ => none

def checked (settings : Settings) : Except Fault Settings :=
  match settings.validate with
  | .ok _ => .ok settings
  | .error defect => .error (.invalid defect)

def ofBytes (path : String) (bytes : List UInt8) : Except Fault Settings :=
  match Text.Utf8.decode bytes with
  | .error _ => .error (.unreadable path .notText)
  | .ok text =>
    match parse text with
    | .error rejection => .error (.malformed path rejection)
    | .ok settings => settings.checked

structure Source where
  path : String
  required : Bool
deriving DecidableEq, Repr

def Source.find? (named home : Option String) : Option Source :=
  match named with
  | some path => some ⟨path, true⟩
  | none => home.map fun home => ⟨home ++ "/.confluence-mcp/config.json", false⟩

def load (source : Source) (entry : Entry) : Except Fault Settings :=
  match entry with
  | .missing => if source.required then .error (.notFound source.path) else checked {}
  | .file bytes => ofBytes source.path bytes
  | .unreadable fault => .error (.unreadable source.path fault)

def loadFrom (files : String → Entry) (named home : Option String) : Except Fault Settings :=
  match Source.find? named home with
  | some source => load source (files source.path)
  | none => checked {}

end MarkdownServer.Settings
