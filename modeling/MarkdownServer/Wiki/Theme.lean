import MarkdownServer.Text.Blank
import MarkdownServer.Rendering
/- The colour themes of code blocks, and the options of a conversion. -/
set_option autoImplicit false

namespace MarkdownServer.Wiki

def knownThemes : List String :=
  ["DJango", "Emacs", "FadeToGrey", "Midnight", "RDark", "Eclipse", "Confluence"]

def isKnownTheme (theme : String) : Bool :=
  knownThemes.any fun known =>
    known.toList.map Char.toLower == theme.toList.map Char.toLower

structure Options where
  theme : Option String := none
  limit : Nat := Rendering.defaultLimit
deriving DecidableEq, Repr

namespace Options

def normaliseTheme (theme : Option String) : Option String :=
  (theme.map Text.trim).filter fun t => !t.isEmpty

def setTheme (options : Options) (theme : Option String) : Options :=
  { options with theme := normaliseTheme theme }

def setLimit (options : Options) (limit : Nat) : Options :=
  { options with limit }

def withTheme (theme : String) : Options :=
  setTheme {} (some theme)

end Options
end MarkdownServer.Wiki
