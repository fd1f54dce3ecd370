import MarkdownServer.Proofs.Stream.Lines
import MarkdownServer.Proofs.Text.Utf8
/- Which lines a stream holds. The bytes of a text are read to their end, line by line as the text
   stands; any other bytes are read up to a first line that is no text. -/
set_option autoImplicit false

namespace MarkdownServer.Stream

open Text.Utf8 (Fault decode encode)

theorem line_by_line {α : Type} [DecidableEq α] (feed : α) (P : List α → Prop) (nil : P [])
    (last : ∀ body, feed ∉ body → body ≠ [] → P body)
    (line : ∀ body rest, feed ∉ body → P rest → P (body ++ feed :: rest)) (xs : List α) : P xs := by
  by_cases member : feed ∈ xs
  · obtain ⟨body, rest, split, single⟩ := List.eq_append_cons_of_mem member
    have shorter : rest.length < xs.length := by
      rw [split, List.length_append, List.length_cons]
      omega
    exact split ▸ line body rest single (line_by_line feed P nil last line rest)
  · by_cases empty : xs = []
    · exact empty ▸ nil
    · exact last xs member empty
termination_by xs.length

theorem segments_from_done (current bytes : List UInt8) (done : List (List UInt8)) :
    segmentsFrom current done bytes = done.reverse ++ segmentsFrom current [] bytes := by
  induction bytes generalizing current done with
  | nil =>
      rw [segmentsFrom, segmentsFrom]
      split <;> simp
  | cons b rest ih =>
      rw [segmentsFrom, segmentsFrom]
      split
      · rw [ih, ih _ [_]]
        simp
      · exact ih _ done

theorem segments_line (body rest : List UInt8) (single : lineFeed ∉ body) :
    segments (body ++ lineFeed :: rest) = (body ++ [lineFeed]) :: segments rest := by
  rw [segments, segments_from_line [] body rest [] single, segments_from_done]
  rfl

theorem segments_from_last (current body : List UInt8) (single : lineFeed ∉ body)
    (filled : current.reverse ++ body ≠ []) :
    segmentsFrom current [] body = [current.reverse ++ body] := by
  induction body generalizing current with
  | nil =>
      have open' : current.isEmpty = false := by simpa using filled
      simp [segmentsFrom, open']
  | cons b body ih =>
      obtain ⟨other, single⟩ := not_or.mp (mt List.mem_cons.mpr single)
      rw [segmentsFrom, if_neg (Ne.symm other), ih (b :: current) single (by simp)]
      simp

theorem segments_last (body : List UInt8) (single : lineFeed ∉ body) (filled : body ≠ []) :
    segments body = [body] :=
  segments_from_last [] body single filled

theorem lines_from_done (done : List String) (pieces : List (List UInt8)) :
    linesFrom done pieces = (done.reverse ++ (linesFrom [] pieces).1, (linesFrom [] pieces).2) := by
  induction pieces generalizing done with
  | nil => simp [linesFrom]
  | cons piece rest ih =>
      rw [linesFrom, linesFrom]
      cases lineOf piece with
      | error fault => simp
      | ok line =>
          dsimp only
          rw [ih, ih [line]]
          simp

theorem lines_text_line (body rest : List UInt8) (line : String) (single : lineFeed ∉ body)
    (read : lineOf (body ++ [lineFeed]) = .ok line) :
    lines (body ++ lineFeed :: rest) = (line :: (lines rest).1, (lines rest).2) := by
  unfold lines
  rw [segments_line body rest single, linesFrom, read]
  exact lines_from_done [line] (segments rest)

theorem lines_faulty_line (body rest : List UInt8) (fault : Fault) (single : lineFeed ∉ body)
    (failed : lineOf (body ++ [lineFeed]) = .error fault) :
    lines (body ++ lineFeed :: rest) = ([], some fault) := by
  unfold lines
  rw [segments_line body rest single, linesFrom, failed]
  rfl

theorem lines_last (body : List UInt8) (single : lineFeed ∉ body) (filled : body ≠ []) :
    lines body = match lineOf body with
      | .ok line => ([line], none)
      | .error fault => ([], some fault) := by
  unfold lines
  rw [segments_last body single filled, linesFrom]
  cases lineOf body with
  | ok line => rfl
  | error fault => rfl

def dropReturn (cs : List Char) : List Char :=
  if cs.getLast? = some '\r' then cs.dropLast else cs

-- The lines of a text: each ends at a line feed, or at a carriage return and a line feed, but for a
-- last one that ends with the text.
def textLines (cs : List Char) : List String :=
  let pieces := cs.splitOn '\n'
  (pieces.dropLast.map dropReturn ++ pieces.getLast?.toList.filter fun piece => !piece.isEmpty).map
    String.ofList

theorem text_lines_last (body : List Char) (single : '\n' ∉ body) (filled : body ≠ []) :
    textLines body = [String.ofList body] := by
  have filled : body.isEmpty = false := by simpa using filled
  simp [textLines, List.splitOn_eq_singleton single, filled]

theorem text_lines_line (body rest : List Char) (single : '\n' ∉ body) :
    textLines (body ++ '\n' :: rest) = String.ofList (dropReturn body) :: textLines rest := by
  have filled := List.splitOn_ne_nil '\n' rest
  unfold textLines
  rw [List.splitOn_append_cons_self_of_not_mem single]
  dsimp only
  rw [List.dropLast_cons_of_ne_nil filled, List.getLast?_cons_of_ne_nil filled]
  rfl

theorem chomp_drop_return (body : List Char) : chomp (body ++ ['\n']) = dropReturn body := by
  unfold chomp dropReturn
  rw [List.reverse_append, ← List.head?_reverse, ← List.reverse_reverse body]
  generalize body.reverse = cs
  cases cs with
  | nil => rfl
  | cons c cs =>
      by_cases carriage : c = '\r'
      · simp [carriage]
      · simp [carriage]

theorem chomp_plain (body : List Char) (single : '\n' ∉ body) : chomp body = body := by
  unfold chomp
  have other : '\n' ∉ body.reverse := by simpa using single
  split
  · rename_i rest same
    simp [same] at other
  · rename_i rest _ same
    simp [same] at other
  · rfl

theorem line_feed_apart (body : List Char) (single : '\n' ∉ body) :
    lineFeed ∉ encode (String.ofList body) := by
  rw [Text.Utf8.encode_of_list, List.mem_flatMap]
  rintro ⟨c, member, feed⟩
  have same : c = '\n' := Text.Utf8.ascii_byte '\n' c (by decide) feed
  exact single (same ▸ member)

theorem encode_line (body rest : List Char) :
    encode (String.ofList (body ++ '\n' :: rest)) =
      encode (String.ofList body) ++ lineFeed :: encode (String.ofList rest) := by
  rw [Text.Utf8.encode_of_list, Text.Utf8.encode_of_list, Text.Utf8.encode_of_list, List.flatMap_append,
    List.flatMap_cons]
  rfl

theorem encode_nil : encode (String.ofList []) = [] :=
  Text.Utf8.encode_of_list []

theorem line_of_text (body : List Char) :
    lineOf (encode (String.ofList body) ++ [lineFeed]) = .ok (String.ofList (dropReturn body)) := by
  have bytes := encode_line body []
  rw [encode_nil] at bytes
  unfold lineOf
  rw [← bytes, Text.Utf8.decode_encode, ← chomp_drop_return]
  simp [Except.map]

theorem line_of_last (body : List Char) (single : '\n' ∉ body) :
    lineOf (encode (String.ofList body)) = .ok (String.ofList body) := by
  unfold lineOf
  rw [Text.Utf8.decode_encode]
  simp [Except.map, chomp_plain body single]

theorem encode_some (body : List Char) (filled : body ≠ []) : encode (String.ofList body) ≠ [] := by
  intro empty
  have same := Text.Utf8.decode_encode (String.ofList body)
  rw [empty] at same
  have none : String.ofList body = String.ofList [] := (Except.ok.inj same).symm
  exact filled (String.ofList_inj.mp none)

theorem lines_text (cs : List Char) : lines (encode (String.ofList cs)) = (textLines cs, none) := by
  induction cs using line_by_line '\n' with
  | nil => rw [encode_nil]; rfl
  | last body single filled =>
      rw [lines_last _ (line_feed_apart body single) (encode_some body filled),
        line_of_last body single, text_lines_last body single filled]
  | line body rest single ih =>
      rw [encode_line, lines_text_line _ _ _ (line_feed_apart body single) (line_of_text body), ih,
        text_lines_line body rest single]

inductive Broken (before : List Char) (fault : Fault) : List UInt8 → Prop where
  | line (body rest : List UInt8) (whole : ∀ c, before.getLast? = some c → c = '\n')
      (single : lineFeed ∉ body) (failed : decode (body ++ [lineFeed]) = .error fault) :
      Broken before fault (encode (String.ofList before) ++ (body ++ lineFeed :: rest))
  | last (body : List UInt8) (whole : ∀ c, before.getLast? = some c → c = '\n')
      (single : lineFeed ∉ body) (failed : decode body = .error fault) :
      Broken before fault (encode (String.ofList before) ++ body)

theorem line_of_faulty (segment : List UInt8) (fault : Fault) (failed : decode segment = .error fault) :
    lineOf segment = .error fault := by
  unfold lineOf
  rw [failed]
  rfl

theorem lines_whole (before : List Char) (whole : ∀ c, before.getLast? = some c → c = '\n')
    (bytes : List UInt8) :
    lines (encode (String.ofList before) ++ bytes) =
      (textLines before ++ (lines bytes).1, (lines bytes).2) := by
  induction before using line_by_line '\n' with
  | nil => rw [encode_nil]; rfl
  | last body single filled =>
      have feed := whole _ (List.getLast?_eq_some_getLast filled)
      exact absurd (feed ▸ List.getLast_mem filled) single
  | line body rest single ih =>
      have wholeRest : ∀ c, rest.getLast? = some c → c = '\n' := by
        intro c last
        apply whole c
        simp [List.getLast?_append, List.getLast?_cons, last]
      rw [encode_line, List.append_assoc, List.cons_append,
        lines_text_line _ _ _ (line_feed_apart body single) (line_of_text body), ih wholeRest,
        text_lines_line body rest single]
      rfl

theorem lines_broken (before : List Char) (fault : Fault) (bytes : List UInt8)
    (broken : Broken before fault bytes) : lines bytes = (textLines before, some fault) := by
  cases broken with
  | line body rest whole single failed =>
      rw [lines_whole before whole,
        lines_faulty_line body rest fault single (line_of_faulty _ fault failed), List.append_nil]
  | last body whole single failed =>
      have filled : body ≠ [] := by
        rintro rfl
        cases failed
      rw [lines_whole before whole, lines_last body single filled, line_of_faulty body fault failed]
      exact congrArg (·, _) (List.append_nil _)

theorem broken_first (body : List UInt8) (single : lineFeed ∉ body) (fault : Fault) :
    (decode body = .error fault → Broken [] fault body) ∧
      ∀ rest, decode (body ++ [lineFeed]) = .error fault → Broken [] fault (body ++ lineFeed :: rest) := by
  constructor
  · intro failed
    have broken : Broken [] fault (encode (String.ofList []) ++ body) := .last body nofun single failed
    rwa [encode_nil] at broken
  · intro rest failed
    have broken : Broken [] fault (encode (String.ofList []) ++ (body ++ lineFeed :: rest)) :=
      .line body rest nofun single failed
    rwa [encode_nil] at broken

theorem broken_later (line before : List Char) (fault : Fault) (bytes : List UInt8)
    (broken : Broken before fault bytes) :
    Broken (line ++ '\n' :: before) fault (encode (String.ofList line) ++ lineFeed :: bytes) := by
  have later (whole : ∀ c, before.getLast? = some c → c = '\n') :
      ∀ c, (line ++ '\n' :: before).getLast? = some c → c = '\n' := by
    intro c last
    cases ending : before.getLast? with
    | none => simpa [List.getLast?_append, List.getLast?_cons, ending, eq_comm] using last
    | some d =>
        have same : d = c := by simpa [List.getLast?_append, List.getLast?_cons, ending] using last
        exact same ▸ whole d ending
  cases broken with
  | line body rest whole single failed =>
      have broken := Broken.line body rest (later whole) single failed
      rwa [encode_line, List.append_assoc] at broken
  | last body whole single failed =>
      have broken := Broken.last body (later whole) single failed
      rwa [encode_line, List.append_assoc] at broken

theorem encode_feed (text : String) (body : List UInt8) (ends : body ++ [lineFeed] = encode text) :
    ∃ line, body = encode (String.ofList line) ∧ text = String.ofList (line ++ ['\n']) := by
  rw [← String.ofList_toList (s := text)] at ends ⊢
  rcases List.eq_nil_or_concat text.toList with empty | ⟨line, c, split⟩
  · rw [empty, encode_nil] at ends
    cases List.append_ne_nil_of_right_ne_nil body (List.cons_ne_nil _ _) ends
  · rw [split, List.concat_eq_append] at ends ⊢
    have last : lineFeed ∈ String.utf8EncodeChar c := by
      have characters := Text.Utf8.encode_of_list (line ++ [c])
      rw [← ends, List.flatMap_append, List.flatMap_singleton] at characters
      have same := congrArg List.getLast? characters
      rw [List.getLast?_concat, List.getLast?_append_of_ne_nil _ String.utf8EncodeChar_ne_nil] at same
      exact List.mem_of_getLast? same.symm
    have feed : c = '\n' := Text.Utf8.ascii_byte '\n' c (by decide) last
    rw [feed] at ends ⊢
    rw [encode_line, encode_nil] at ends
    exact ⟨line, List.append_cancel_right ends, rfl⟩

theorem text_or_broken (bytes : List UInt8) :
    (∃ text, bytes = encode text) ∨ ∃ before fault, Broken before fault bytes := by
  induction bytes using line_by_line lineFeed with
  | nil => exact .inl ⟨_, encode_nil.symm⟩
  | last body single filled =>
      cases decoded : decode body with
      | ok text => exact .inl ⟨text, (Text.Utf8.decode_iff body text).mp decoded⟩
      | error fault => exact .inr ⟨[], fault, (broken_first body single fault).1 decoded⟩
  | line body rest single ih =>
      cases decoded : decode (body ++ [lineFeed]) with
      | error fault => exact .inr ⟨[], fault, (broken_first body single fault).2 rest decoded⟩
      | ok text =>
          obtain ⟨line, rfl, -⟩ := encode_feed text body ((Text.Utf8.decode_iff _ text).mp decoded)
          rcases ih with ⟨more, rfl⟩ | ⟨before, fault, broken⟩
          · refine .inl ⟨String.ofList (line ++ '\n' :: more.toList), ?_⟩
            rw [encode_line, String.ofList_toList]
          · exact .inr ⟨_, fault, broken_later line before fault rest broken⟩

end MarkdownServer.Stream
