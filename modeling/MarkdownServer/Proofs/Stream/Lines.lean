import Mathlib.Data.List.Forall2
import Mathlib.Data.List.ReduceOption
import MarkdownServer.Proofs.Json.Trailing
import MarkdownServer.Proofs.Text.Utf8
import MarkdownServer.Stream.Serve
/- What a stream of whole lines comes to: every line has the text of its bytes, and the output is what
   the server replies to one line after the other. -/
set_option autoImplicit false

namespace MarkdownServer.Stream

open Protocol (Message Reply)

def joined (bodies : List (List UInt8)) : List UInt8 :=
  bodies.flatMap fun body => body ++ [lineFeed]

theorem segments_from_line (current body rest : List UInt8) (done : List (List UInt8))
    (single : lineFeed ∉ body) :
    segmentsFrom current done (body ++ lineFeed :: rest) =
      segmentsFrom [] ((current.reverse ++ body ++ [lineFeed]) :: done) rest := by
  induction body generalizing current with
  | nil => simp [segmentsFrom]
  | cons b body ih =>
      obtain ⟨other, single⟩ := not_or.mp (mt List.mem_cons.mpr single)
      rw [List.cons_append, segmentsFrom, if_neg (Ne.symm other), ih (b :: current) single]
      simp

theorem segments_from_joined (done bodies : List (List UInt8))
    (single : ∀ body ∈ bodies, lineFeed ∉ body) :
    segmentsFrom [] done (joined bodies) =
      done.reverse ++ bodies.map fun body => body ++ [lineFeed] := by
  induction bodies generalizing done with
  | nil => simp [joined, segmentsFrom]
  | cons body bodies ih =>
      obtain ⟨first, rest⟩ := List.forall_mem_cons.mp single
      have step := segments_from_line [] body (joined bodies) done first
      have split : joined (body :: bodies) = body ++ lineFeed :: joined bodies := by simp [joined]
      rw [split, step, ih _ rest]
      simp

theorem segments_joined (bodies : List (List UInt8)) (single : ∀ body ∈ bodies, lineFeed ∉ body) :
    segments (joined bodies) = bodies.map fun body => body ++ [lineFeed] :=
  segments_from_joined [] bodies single

theorem decode_line_feed (body : List UInt8) (text : String)
    (decoded : Text.Utf8.decode body = .ok text) :
    Text.Utf8.decode (body ++ [lineFeed]) = .ok (text ++ "\n") := by
  have feed : Text.Utf8.encode "\n" = [lineFeed] := Text.Utf8.encode_of_list ['\n']
  rw [(Text.Utf8.decode_iff body text).mp decoded, ← feed, ← Text.Utf8.encode_append]
  exact Text.Utf8.decode_encode _

theorem chomp_line_feed (cs : List Char) :
    ∃ tail, Json.Blank tail ∧ cs = chomp (cs ++ ['\n']) ++ tail := by
  unfold chomp
  rw [List.reverse_append]
  split
  · rename_i rest same
    have ends : cs = rest.reverse ++ ['\r'] := by
      have := congrArg List.reverse (List.cons.inj same).2
      simpa using this
    refine ⟨['\r'], ?_, ends⟩
    simp [Json.Blank, Json.isSpace]
  · rename_i rest _ same
    have ends : cs = rest.reverse := by
      have := congrArg List.reverse (List.cons.inj same).2
      simpa using this
    exact ⟨[], by simp [Json.Blank], by simpa using ends⟩
  · rename_i other
    exact absurd rfl (other cs.reverse)

theorem space_is_blank (c : Char) (space : Json.isSpace c = true) : Text.isBlank c = true := by
  rcases Json.space_cases c space with rfl | rfl | rfl | rfl <;> decide

structure SameLine (line text : String) : Prop where
  parsed : Message.parse line = Message.parse text
  blank : Text.allBlank line = Text.allBlank text

theorem chomp_same_line (cs : List Char) :
    SameLine (String.ofList (chomp (cs ++ ['\n']))) (String.ofList cs) := by
  obtain ⟨tail, blank, split⟩ := chomp_line_feed cs
  constructor
  · have same := Protocol.parse_trailing (chomp (cs ++ ['\n'])) tail blank
    rw [← split] at same
    exact same.symm
  · have spaces : tail.all Text.isBlank = true :=
      List.all_eq_true.mpr fun c member => space_is_blank c (blank c member)
    unfold Text.allBlank
    rw [String.toList_ofList, String.toList_ofList]
    conv_rhs => rw [split, List.all_append, spaces, Bool.and_true]

theorem line_of_body (body : List UInt8) (text : String)
    (decoded : Text.Utf8.decode body = .ok text) :
    ∃ line, lineOf (body ++ [lineFeed]) = .ok line ∧ SameLine line text := by
  have same := chomp_same_line text.toList
  rw [String.ofList_toList] at same
  refine ⟨_, ?_, same⟩
  unfold lineOf
  rw [decode_line_feed body text decoded]
  simp [Except.map]

def replies (server : Server) (session : Session) : List String → List (Option Reply)
  | [] => []
  | line :: rest =>
    if Text.allBlank line then none :: replies server session rest
    else
      let answer := server.handleLine session line
      answer.reply :: replies server answer.session rest

theorem replies_step (server : Server) (service : Service) (lines : List String) :
    (lines.foldl (Service.step server) service).replies.reverse =
      service.replies.reverse ++ (replies server service.session lines).reduceOption := by
  induction lines generalizing service with
  | nil => simp [replies]
  | cons line rest ih =>
      rw [List.foldl_cons, ih, replies, Service.step]
      split
      · simp
      · dsimp only
        cases (server.handleLine service.session line).reply with
        | none => simp
        | some reply => simp

theorem handle_same_line (server : Server) (session : Session) (line text : String)
    (same : SameLine line text) : server.handleLine session line = server.handleLine session text := by
  unfold Server.handleLine
  rw [same.parsed]

theorem replies_same_lines (server : Server) (session : Session) (lines texts : List String)
    (same : List.Forall₂ SameLine lines texts) :
    replies server session lines = replies server session texts := by
  induction same generalizing session with
  | nil => rfl
  | @cons line text lines texts first _ ih =>
      simp only [replies, first.blank, handle_same_line server session line text first, ih]

theorem replies_take (server : Server) (session : Session) (lines : List String) (count : Nat) :
    replies server session (lines.take count) = (replies server session lines).take count := by
  induction lines generalizing session count with
  | nil => simp [replies]
  | cons line rest ih =>
      cases count with
      | zero => rfl
      | succ count =>
          rw [List.take_succ_cons, replies, replies]
          split <;> simp [ih]

theorem lines_from_bodies (done : List String) (bodies : List (List UInt8)) (texts : List String)
    (decoded : List.Forall₂ (fun body text => Text.Utf8.decode body = .ok text) bodies texts) :
    ∃ lines, linesFrom done (bodies.map fun body => body ++ [lineFeed]) = (done.reverse ++ lines, none) ∧
      List.Forall₂ SameLine lines texts := by
  induction decoded generalizing done with
  | nil => exact ⟨[], by simp [linesFrom], .nil⟩
  | @cons body text bodies texts first _ ih =>
      obtain ⟨line, read, same⟩ := line_of_body body text first
      obtain ⟨lines, rest, sameLines⟩ := ih (line :: done)
      refine ⟨line :: lines, ?_, .cons same sameLines⟩
      rw [List.map_cons, linesFrom, read]
      simpa using rest

theorem serve_joined (server : Server) (bodies : List (List UInt8)) (texts : List String)
    (single : ∀ body ∈ bodies, lineFeed ∉ body)
    (decoded : List.Forall₂ (fun body text => Text.Utf8.decode body = .ok text) bodies texts) :
    (serve server (joined bodies)).output =
        written (replies server .awaiting texts).reduceOption ∧
      (serve server (joined bodies)).failure = none := by
  obtain ⟨read, fine, same⟩ := lines_from_bodies [] bodies texts decoded
  have all : lines (joined bodies) = (read, none) := by
    unfold lines
    rw [segments_joined bodies single]
    exact fine
  unfold serve
  rw [all]
  refine ⟨?_, rfl⟩
  dsimp only
  rw [replies_step, ← replies_same_lines server .awaiting read texts same]
  rfl

end MarkdownServer.Stream
