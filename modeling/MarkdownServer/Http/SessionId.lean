import MarkdownServer.Text.Digits
/- Ids of sessions: random numbers that nobody can guess. -/
set_option autoImplicit false

namespace MarkdownServer.Http

open Text (hexDigits)

def writeByte (b : UInt8) : List Char :=
  if b < 16 then '0' :: hexDigits b.toNat else hexDigits b.toNat

def writeBytes (bytes : List UInt8) : String :=
  String.ofList (bytes.flatMap writeByte)

/-- Marks sixteen bytes as a random identifier of the standard form, version 4. -/
def markRandom (bytes : List UInt8) : List UInt8 :=
  (bytes.modify 6 fun b => b % 16 + 0x40).modify 8 fun b => b % 64 + 0x80

def sessionIdOf (random : List UInt8) : String :=
  let bytes := markRandom random
  "-".intercalate [writeBytes (bytes.take 4), writeBytes ((bytes.drop 4).take 2),
    writeBytes ((bytes.drop 6).take 2), writeBytes ((bytes.drop 8).take 2),
    writeBytes (bytes.drop 10)]

end MarkdownServer.Http
