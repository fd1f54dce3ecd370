import MarkdownServer.Proofs.Stream.Reading
/- How lines are laid out in a stream does not matter to a service: which line ends they have, whether
   the last one has any, and whether blank lines stand between them. -/
set_option autoImplicit false

namespace MarkdownServer.Stream

open Text.Utf8 (encode)

inductive LineEnd : List Char → Prop where
  | feed : LineEnd ['\n']
  | both : LineEnd ['\r', '\n']

-- A text that holds the lines, each with a line end but maybe for the last one, and any blank lines
-- between them.
inductive Layout : List (List Char) → List Char → Prop where
  | none : Layout [] []
  | line (line ending rest : List Char) (lines : List (List Char)) (single : '\n' ∉ line)
      (ends : LineEnd ending) (more : Layout lines rest) : Layout (line :: lines) (line ++ ending ++ rest)
  | blank (line ending rest : List Char) (lines : List (List Char)) (single : '\n' ∉ line)
      (blank : line.all Text.isBlank = true) (ends : LineEnd ending) (more : Layout lines rest) :
      Layout lines (line ++ ending ++ rest)
  | last (line : List Char) (single : '\n' ∉ line) : Layout [line] line
  | lastBlank (line : List Char) (single : '\n' ∉ line) (blank : line.all Text.isBlank = true) :
      Layout [] line

theorem ended_line_read (line ending rest : List Char) (single : '\n' ∉ line) (ends : LineEnd ending) :
    ∃ read, textLines (line ++ ending ++ rest) = read :: textLines rest ∧
      SameLine read (String.ofList line) := by
  cases ends with
  | feed =>
      refine ⟨String.ofList (dropReturn line), ?_, ?_⟩
      · rw [List.append_assoc, List.singleton_append, text_lines_line line rest single]
      · rw [← chomp_drop_return]
        exact chomp_same_line line
  | both =>
      have apart : '\n' ∉ line ++ ['\r'] := by simpa using single
      have dropped : dropReturn (line ++ ['\r']) = line := by simp [dropReturn]
      refine ⟨String.ofList line, ?_, rfl, rfl⟩
      have split : line ++ ['\r', '\n'] ++ rest = (line ++ ['\r']) ++ '\n' :: rest := by simp
      rw [split, text_lines_line _ rest apart, dropped]

def isVisible (line : String) : Bool := !Text.allBlank line

theorem same_line_visible (line text : String) (same : SameLine line text) :
    isVisible line = isVisible text := by
  rw [isVisible, isVisible, same.blank]

theorem blank_invisible (line : List Char) (blank : line.all Text.isBlank = true) :
    isVisible (String.ofList line) = false := by
  rw [isVisible, Text.allBlank, String.toList_ofList, blank]
  rfl

theorem last_line_read (line : List Char) (single : '\n' ∉ line) :
    (textLines line).filter isVisible = [String.ofList line].filter isVisible := by
  by_cases empty : line = []
  · rw [empty]
    rfl
  · rw [text_lines_last line single empty]

theorem layout_read (lines : List (List Char)) (text : List Char) (layout : Layout lines text) :
    List.Forall₂ SameLine ((textLines text).filter isVisible)
      ((lines.map String.ofList).filter isVisible) := by
  induction layout with
  | none => exact .nil
  | line line ending rest lines single ends more ih =>
      obtain ⟨read, split, same⟩ := ended_line_read line ending rest single ends
      have visible := same_line_visible read _ same
      rw [split, List.map_cons]
      by_cases shown : isVisible (String.ofList line) = true
      · rw [List.filter_cons_of_pos (visible.trans shown), List.filter_cons_of_pos shown]
        exact .cons same ih
      · rw [List.filter_cons_of_neg (by rwa [visible]), List.filter_cons_of_neg shown]
        exact ih
  | blank line ending rest lines single blank ends more ih =>
      obtain ⟨read, split, same⟩ := ended_line_read line ending rest single ends
      have hidden := (same_line_visible read _ same).trans (blank_invisible line blank)
      rw [split, List.filter_cons_of_neg (by simp [hidden])]
      exact ih
  | last line single =>
      rw [last_line_read line single]
      exact List.forall₂_same.mpr fun _ _ => ⟨rfl, rfl⟩
  | lastBlank line single blank =>
      rw [last_line_read line single, List.filter_cons_of_neg (by simp [blank_invisible line blank])]
      exact .nil

theorem step_same_line (server : Server) (service : Service) (line text : String)
    (same : SameLine line text) : service.step server line = service.step server text := by
  unfold Service.step
  rw [same.blank, handle_same_line server service.session line text same]

theorem steps_visible (server : Server) (service : Service) (lines : List String) :
    lines.foldl (Service.step server) service =
      (lines.filter isVisible).foldl (Service.step server) service := by
  induction lines generalizing service with
  | nil => rfl
  | cons line rest ih =>
      by_cases blank : Text.allBlank line = true
      · have skipped : service.step server line = service := by rw [Service.step, if_pos blank]
        rw [List.filter_cons_of_neg (by simp [isVisible, blank]), List.foldl_cons, skipped]
        exact ih service
      · rw [List.filter_cons_of_pos (by simp [isVisible, blank]), List.foldl_cons, List.foldl_cons]
        exact ih _

theorem steps_same_lines (server : Server) (service : Service) (lines texts : List String)
    (same : List.Forall₂ SameLine lines texts) :
    lines.foldl (Service.step server) service = texts.foldl (Service.step server) service := by
  induction same generalizing service with
  | nil => rfl
  | @cons line text lines texts first _ ih =>
      rw [List.foldl_cons, List.foldl_cons, step_same_line server service line text first]
      exact ih _

theorem serve_layout (server : Server) (lines : List (List Char)) (text : List Char)
    (layout : Layout lines text) :
    serve server (encode (String.ofList text)) =
      let service := (lines.map String.ofList).foldl (Service.step server) .start
      ⟨written service.replies.reverse, none, service.log⟩ := by
  have same := steps_same_lines server .start _ _ (layout_read lines text layout)
  rw [← steps_visible, ← steps_visible] at same
  rw [serve, lines_text]
  dsimp only
  rw [same]

theorem layouts_serve_alike (server : Server) (lines : List (List Char)) (text other : List Char)
    (layout : Layout lines text) (again : Layout lines other) :
    serve server (encode (String.ofList text)) = serve server (encode (String.ofList other)) := by
  rw [serve_layout server lines text layout, serve_layout server lines other again]

def strayLine : List Char := "stray\r".toList

def pingLine : List Char := "\x7b\"jsonrpc\":\"2.0\",\"id\":1,\"method\":\"ping\"\x7d".toList

theorem layouts_serve_alike_ping :
    '\n' ∉ strayLine ∧ '\n' ∉ pingLine ∧
      serve ⟨.empty⟩ (encode (String.ofList (strayLine ++ ['\n'] ++ pingLine))) =
        serve ⟨.empty⟩ (encode (String.ofList (strayLine ++ ['\r', '\n'] ++
          (['\u00a0'] ++ ['\r', '\n'] ++ (pingLine ++ ['\r', '\n'] ++ ['\t']))))) := by
  have stray : '\n' ∉ strayLine := by decide
  have ping : '\n' ∉ pingLine := by decide
  refine ⟨stray, ping, layouts_serve_alike ⟨.empty⟩ [strayLine, pingLine] _ _ ?_ ?_⟩
  · exact .line _ _ _ _ stray .feed (.last _ ping)
  · refine .line _ _ _ _ stray .both (.blank _ _ _ _ (by decide) (by decide) .both ?_)
    exact .line _ _ _ _ ping .both (.lastBlank _ (by decide) (by decide))

end MarkdownServer.Stream
