import MarkdownServer.Text.Digits
/- Sets of characters written down as ranges of code points. -/
set_option autoImplicit false

namespace MarkdownServer.Text

def words (table : String) : List String :=
  ((table.splitOn "\n").flatMap fun line => line.splitOn " ").filter fun word => !word.isEmpty

structure CharSet where
  ranges : List (Nat × Nat)

namespace CharSet

def contains (s : CharSet) (c : Char) : Bool :=
  s.ranges.any fun r => r.1 ≤ c.toNat && c.toNat ≤ r.2

/-- Reads ranges such as `2010-2027` and single code points such as `20a0`. -/
def ofTable (table : String) : CharSet :=
  ⟨(words table).filterMap fun entry =>
    match entry.splitOn "-" with
    | [one] => some (ofDigits 16 one.toList, ofDigits 16 one.toList)
    | [lo, hi] => some (ofDigits 16 lo.toList, ofDigits 16 hi.toList)
    | _ => none⟩

end CharSet
end MarkdownServer.Text
