import MarkdownServer.Text.Quoted
/- What the program has to say about its own doings. Functions return their records; the outermost
   layer writes them. -/
set_option autoImplicit false

namespace MarkdownServer.Log

inductive Level where
  | error
  | warn
  | info
  | debug
  | trace
deriving DecidableEq, Repr

def Level.name : Level → String
  | .error => "ERROR"
  | .warn => "WARN"
  | .info => "INFO"
  | .debug => "DEBUG"
  | .trace => "TRACE"

def Level.all : List Level :=
  [.error, .warn, .info, .debug, .trace]

def Level.ofName? (name : String) : Option Level :=
  all.find? fun level => level.name.toList == name.toList.map Char.toUpper

def Level.rank : Level → Nat
  | .error => 0
  | .warn => 1
  | .info => 2
  | .debug => 3
  | .trace => 4

inductive Field where
  | quoted (text : String)
  | plain (text : String)
deriving DecidableEq, Repr

def Field.text : Field → String
  | .quoted s => s
  | .plain s => s

def Field.shown : Field → String
  | .quoted s => Text.quoted s
  | .plain s => s

structure Record where
  level : Level
  message : String
  fields : List (String × Field)
deriving DecidableEq, Repr

namespace Record

def error (message : String) (fields : List (String × Field)) : Record :=
  ⟨.error, message, fields⟩

def warn (message : String) (fields : List (String × Field)) : Record :=
  ⟨.warn, message, fields⟩

def info (message : String) (fields : List (String × Field)) : Record :=
  ⟨.info, message, fields⟩

def line (record : Record) : String :=
  record.fields.foldl (fun s f => s ++ " " ++ f.1 ++ "=" ++ f.2.shown)
    (record.level.name ++ " " ++ record.message)

def passes (level : Level) (record : Record) : Bool :=
  record.level.rank ≤ level.rank

end Record
end MarkdownServer.Log
