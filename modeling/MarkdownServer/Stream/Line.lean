import MarkdownServer.Text.Utf8
/- Lines of text in a stream of bytes. -/
set_option autoImplicit false

namespace MarkdownServer.Stream

def lineFeed : UInt8 := 10

/-- The bytes up to each line feed, the line feed included, and the bytes behind the last one if
    there are any. The segment in progress is kept latest byte first. -/
def segmentsFrom (current : List UInt8) (done : List (List UInt8)) :
    List UInt8 → List (List UInt8)
  | [] => (if current.isEmpty then done else current.reverse :: done).reverse
  | b :: rest =>
    if b = lineFeed then segmentsFrom [] ((b :: current).reverse :: done) rest
    else segmentsFrom (b :: current) done rest

def segments (bytes : List UInt8) : List (List UInt8) :=
  segmentsFrom [] [] bytes

def chomp (cs : List Char) : List Char :=
  match cs.reverse with
  | '\n' :: '\r' :: rest => rest.reverse
  | '\n' :: rest => rest.reverse
  | _ => cs

def lineOf (segment : List UInt8) : Except Text.Utf8.Fault String :=
  (Text.Utf8.decode segment).map fun s => String.ofList (chomp s.toList)

def linesFrom (done : List String) :
    List (List UInt8) → List String × Option Text.Utf8.Fault
  | [] => (done.reverse, none)
  | segment :: rest =>
    match lineOf segment with
    | .ok line => linesFrom (line :: done) rest
    | .error fault => (done.reverse, some fault)

def lines (bytes : List UInt8) : List String × Option Text.Utf8.Fault :=
  linesFrom [] (segments bytes)

inductive Next where
  | line (line : String) (rest : List UInt8)
  | ended
  | failed (fault : Text.Utf8.Fault)
  | waiting
deriving Repr

def Next.ofSegment (segment rest : List UInt8) : Next :=
  match lineOf segment with
  | .ok text => .line text rest
  | .error fault => .failed fault

/-- The next line of an input of which these bytes have come. Once the input has ended, the bytes
    behind the last line feed are a line, too. -/
def nextLine (ended : Bool) (bytes : List UInt8) : Next :=
  match bytes.dropWhile (· != lineFeed) with
  | feed :: rest => .ofSegment (bytes.takeWhile (· != lineFeed) ++ [feed]) rest
  | [] =>
    if !ended then .waiting
    else if bytes.isEmpty then .ended
    else .ofSegment bytes []

theorem of_segment_line (segment rest left : List UInt8) (line : String)
    (next : Next.ofSegment segment rest = .line line left) : left = rest := by
  unfold Next.ofSegment at next
  split at next
  · cases next
    rfl
  · cases next

theorem next_line_shorter (ended : Bool) (bytes rest : List UInt8) (line : String)
    (next : nextLine ended bytes = .line line rest) : rest.length < bytes.length := by
  unfold nextLine at next
  split at next
  · rename_i feed behind split
    have shorter := (List.dropWhile_sublist (· != lineFeed) (l := bytes)).length_le
    rw [split, List.length_cons] at shorter
    rw [of_segment_line _ behind rest line next]
    exact shorter
  · split at next
    · cases next
    · split at next
      · cases next
      · rename_i filled
        rw [of_segment_line bytes [] rest line next]
        exact List.length_pos_iff.mpr (by simpa using filled)

end MarkdownServer.Stream
