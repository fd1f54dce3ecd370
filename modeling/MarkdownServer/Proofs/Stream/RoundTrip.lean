import MarkdownServer.Proofs.Stream.Reading
/- Lines that are written one after the other, each with a line end, are read back one after the other.
   Other bytes are read up to the first segment that is no text. -/
set_option autoImplicit false

namespace MarkdownServer.Stream

open Text.Utf8 (Fault decode encode)

theorem other_bytes (body : List UInt8) (single : lineFeed ∉ body) :
    ∀ b ∈ body, (b != lineFeed) = true :=
  fun _ member => bne_iff_ne.mpr fun same => single (same ▸ member)

theorem next_line_whole (ended : Bool) (body rest : List UInt8) (single : lineFeed ∉ body) :
    nextLine ended (body ++ lineFeed :: rest) = .ofSegment (body ++ [lineFeed]) rest := by
  have other := other_bytes body single
  have behind : (body ++ lineFeed :: rest).dropWhile (· != lineFeed) = lineFeed :: rest := by
    rw [List.dropWhile_append_of_pos other]
    exact List.dropWhile_cons_of_neg (by decide)
  have front : (body ++ lineFeed :: rest).takeWhile (· != lineFeed) = body := by
    rw [List.takeWhile_append_of_pos other]
    exact List.append_right_eq_self.mpr (List.takeWhile_cons_of_neg (by decide))
  rw [nextLine, behind, front]

theorem next_line_partial (ended : Bool) (body : List UInt8) (single : lineFeed ∉ body) :
    nextLine ended body =
      if !ended then .waiting else if body.isEmpty then .ended else .ofSegment body [] := by
  have nothing : body.dropWhile (· != lineFeed) = [] := by
    rw [← List.append_nil body, List.dropWhile_append_of_pos (other_bytes body single)]
    rfl
  rw [nextLine, nothing]

theorem of_segment_ok (segment rest : List UInt8) (line : String) (read : lineOf segment = .ok line) :
    Next.ofSegment segment rest = .line line rest := by
  rw [Next.ofSegment, read]

theorem of_segment_error (segment rest : List UInt8) (fault : Fault)
    (failed : lineOf segment = .error fault) : Next.ofSegment segment rest = .failed fault := by
  rw [Next.ofSegment, failed]

-- What an input that ends comes to if line after line is asked for: the lines, and the fault that ends
-- them unless the input does.
inductive Reads : List UInt8 → List String → Option Fault → Prop where
  | ended (bytes : List UInt8) (next : nextLine true bytes = .ended) : Reads bytes [] none
  | failed (bytes : List UInt8) (fault : Fault) (next : nextLine true bytes = .failed fault) :
      Reads bytes [] (some fault)
  | line (bytes rest : List UInt8) (line : String) (more : List String) (failure : Option Fault)
      (next : nextLine true bytes = .line line rest) (further : Reads rest more failure) :
      Reads bytes (line :: more) failure

theorem reads_lines (bytes : List UInt8) : Reads bytes (lines bytes).1 (lines bytes).2 := by
  induction bytes using line_by_line lineFeed with
  | nil => exact .ended [] rfl
  | last body single filled =>
      have next := next_line_partial true body single
      rw [if_neg (by decide), if_neg (by simpa using filled)] at next
      rw [lines_last body single filled]
      cases read : lineOf body with
      | ok line =>
          exact .line body [] line [] none (next.trans (of_segment_ok body [] line read)) (.ended [] rfl)
      | error fault => exact .failed body fault (next.trans (of_segment_error body [] fault read))
  | line body rest single ih =>
      have next := next_line_whole true body rest single
      cases read : lineOf (body ++ [lineFeed]) with
      | ok line =>
          rw [lines_text_line body rest line single read]
          exact .line _ rest line _ _ (next.trans (of_segment_ok _ rest line read)) ih
      | error fault =>
          rw [lines_faulty_line body rest fault single read]
          exact .failed _ fault (next.trans (of_segment_error _ rest fault read))

theorem reads_unique (bytes : List UInt8) (read other : List String) (failure outcome : Option Fault)
    (first : Reads bytes read failure) (second : Reads bytes other outcome) :
    read = other ∧ failure = outcome := by
  induction first generalizing other with
  | ended bytes next =>
      cases second with
      | ended => exact ⟨rfl, rfl⟩
      | failed _ fault again => cases next.symm.trans again
      | line _ rest line more _ again => cases next.symm.trans again
  | failed bytes fault next =>
      cases second with
      | ended _ again => cases next.symm.trans again
      | failed _ fault again =>
          cases next.symm.trans again
          exact ⟨rfl, rfl⟩
      | line _ rest line more _ again => cases next.symm.trans again
  | line bytes rest line more failure next _ ih =>
      cases second with
      | ended _ again => cases next.symm.trans again
      | failed _ fault again => cases next.symm.trans again
      | line _ rest line more _ again further =>
          cases next.symm.trans again
          obtain ⟨rfl, rfl⟩ := ih more further
          exact ⟨rfl, rfl⟩

theorem reads_iff (bytes : List UInt8) (read : List String) (failure : Option Fault) :
    Reads bytes read failure ↔ lines bytes = (read, failure) := by
  constructor
  · intro reads
    obtain ⟨same, outcome⟩ := reads_unique bytes _ read _ failure (reads_lines bytes) reads
    exact Prod.ext same outcome
  · intro known
    have reads := reads_lines bytes
    rwa [known] at reads

inductive Terminator where
  | feed
  | both

def Terminator.chars : Terminator → List Char
  | .feed => ['\n']
  | .both => ['\r', '\n']

structure FramedLine where
  line : List Char
  terminator : Terminator
  single : '\n' ∉ line
  bare : line.getLast? ≠ some '\r'

structure FramedText where
  lines : List FramedLine
  tail : List Char
  single : '\n' ∉ tail

namespace FramedText

def chars (framed : FramedText) : List Char :=
  framed.lines.flatMap (fun l => l.line ++ l.terminator.chars) ++ framed.tail

def contents (framed : FramedText) : List String :=
  framed.lines.map (fun l => String.ofList l.line) ++
    if framed.tail = [] then [] else [String.ofList framed.tail]

end FramedText

theorem text_lines_terminated (l : FramedLine) (rest : List Char) :
    textLines (l.line ++ l.terminator.chars ++ rest) = String.ofList l.line :: textLines rest := by
  obtain ⟨line, terminator, single, bare⟩ := l
  cases terminator with
  | feed =>
      have kept : dropReturn line = line := if_neg bare
      have read := text_lines_line line rest single
      rw [kept] at read
      simpa [Terminator.chars] using read
  | both =>
      have apart : '\n' ∉ line ++ ['\r'] := by simpa using single
      have dropped : dropReturn (line ++ ['\r']) = line := by simp [dropReturn]
      have read := text_lines_line (line ++ ['\r']) rest apart
      rw [dropped] at read
      simpa [Terminator.chars] using read

theorem text_lines_framed (framed : FramedText) : textLines framed.chars = framed.contents := by
  obtain ⟨lines, tail, single⟩ := framed
  unfold FramedText.chars FramedText.contents
  dsimp only
  induction lines with
  | nil =>
      cases tail with
      | nil => rfl
      | cons c tail =>
          rw [if_neg (List.cons_ne_nil c tail)]
          exact text_lines_last (c :: tail) single (List.cons_ne_nil c tail)
  | cons l lines ih =>
      rw [List.flatMap_cons, List.append_assoc, text_lines_terminated, ih]
      rfl

structure ReadThrough (bytes : List UInt8) : Prop where
  reads : ∀ read failure, Reads bytes read failure ↔ lines bytes = (read, failure)
  text : ∀ read failure, Reads bytes read failure → (failure = none ↔ ∃ text, bytes = encode text)
  broken : ∀ before fault, Broken before fault bytes → ∀ read failure, Reads bytes read failure ↔
    Reads (encode (String.ofList before)) read none ∧ failure = some fault
  either : (∃ text, bytes = encode text) ∨ ∃ before fault, Broken before fault bytes

theorem lines_no_failure (bytes : List UInt8) :
    (lines bytes).2 = none ↔ ∃ text, bytes = encode text := by
  constructor
  · intro fine
    rcases text_or_broken bytes with text | ⟨before, fault, broken⟩
    · exact text
    · rw [lines_broken before fault bytes broken] at fine
      cases fine
  · rintro ⟨text, rfl⟩
    rw [← String.ofList_toList (s := text), lines_text]

theorem read_through (bytes : List UInt8) : ReadThrough bytes where
  reads := reads_iff bytes
  text read failure reads := by
    have fine := lines_no_failure bytes
    rwa [(reads_iff bytes read failure).mp reads] at fine
  broken before fault broken read failure := by
    rw [reads_iff, reads_iff, lines_broken before fault bytes broken, lines_text]
    simp [eq_comm]
  either := text_or_broken bytes

theorem reading_undoes_framing (framed : FramedText) (bytes : List UInt8) :
    (∀ read failure, Reads (encode (String.ofList framed.chars)) read failure ↔
      read = framed.contents ∧ failure = none) ∧
      ReadThrough bytes := by
  refine ⟨fun read failure => ?_, read_through bytes⟩
  rw [reads_iff, lines_text, text_lines_framed]
  simp [eq_comm]

end MarkdownServer.Stream
