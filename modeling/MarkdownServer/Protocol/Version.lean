/- The versions of the protocol, and which one a session speaks. -/
set_option autoImplicit false

namespace MarkdownServer.Protocol

inductive Version where
  | june2025
  | march2025
  | november2024
deriving DecidableEq, Repr

namespace Version

def name : Version → String
  | .june2025 => "2025-06-18"
  | .march2025 => "2025-03-26"
  | .november2024 => "2024-11-05"

def all : List Version :=
  [.june2025, .march2025, .november2024]

def newest : Version := .june2025

def negotiate (requested : String) : Version :=
  (all.find? fun v => v.name == requested).getD newest

end Version
end MarkdownServer.Protocol
