import Mathlib.Data.List.Infix
import MarkdownServer.Proofs.Json.Plain
import MarkdownServer.Proofs.Server.Correlation
import MarkdownServer.Proofs.Server.Replies
import MarkdownServer.Proofs.Session.Steadiness
import MarkdownServer.Proofs.Stream.Reading
/- What a stream of input comes to: a line of output for every line that calls for a reply, in the same
   order, with nothing in a reply that could end its line. Bytes that are no text stop the service there
   and leave the replies so far as they are. -/
set_option autoImplicit false

namespace MarkdownServer.Stream

open Protocol (Message Reply)
open Text.Utf8 (Fault encode)

def sessionAfter (server : Server) (before : List String) : Session :=
  Session.after server (before.map .line)

theorem session_after_line (server : Server) (before : List String) (line : String) :
    sessionAfter server (before ++ [line]) =
      (server.handleLine (sessionAfter server before) line).session := by
  unfold sessionAfter
  rw [List.map_append, List.map_singleton, Session.after_concat]
  rfl

theorem session_after_blank (server : Server) (before : List String) (line : String)
    (blank : Text.allBlank line = true) :
    sessionAfter server (before ++ [line]) = sessionAfter server before := by
  rw [session_after_line]
  apply Session.harmless_keeps
  rw [Session.isHarmless, Protocol.parse_blank line blank]

def isCall (line : String) : Bool :=
  !Text.allBlank line && callsForReply line

def calls (lines : List String) : List (List String × String) :=
  (lines.inits.zip lines).filter fun call => isCall call.2

def RepliesTo (server : Server) (call : List String × String) (json : String) : Prop :=
  ∃ reply, (server.handleLine (sessionAfter server call.1) call.2).reply = some reply ∧ Tells reply json

theorem replies_answer (server : Server) (before lines : List String) :
    List.Forall₂ (RepliesTo server)
      (((lines.inits.map fun more => before ++ more).zip lines).filter fun call => isCall call.2)
      ((replies server (sessionAfter server before) lines).reduceOption.map Reply.json) := by
  induction lines generalizing before with
  | nil => exact .nil
  | cons line rest ih =>
      have further : ((fun more => before ++ more) ∘ fun more => line :: more) =
          fun more => (before ++ [line]) ++ more := by
        funext more
        simp
      rw [List.inits_cons, List.map_cons, List.map_map, further, List.append_nil, List.zip_cons_cons, replies]
      by_cases blank : Text.allBlank line = true
      · have silent : isCall line = false := by rw [isCall, blank]; rfl
        rw [if_pos blank, List.filter_cons_of_neg (by simp [silent]), List.reduceOption_cons_of_none,
          ← session_after_blank server before line blank]
        exact ih _
      · have replied := Server.handle_line_replied server (sessionAfter server before) line
        rw [if_neg blank]
        dsimp only
        rw [← session_after_line]
        cases given : (server.handleLine (sessionAfter server before) line).reply with
        | none =>
            rw [given] at replied
            cases replied with
            | silence method parsed =>
                have silent : isCall line = false := by simp [isCall, callsForReply, parsed]
                rw [List.filter_cons_of_neg (by simp [silent]), List.reduceOption_cons_of_none]
                exact ih _
        | some reply =>
            rw [given] at replied
            cases replied with
            | reply _ asked answers =>
                have call : isCall line = true := by simp [isCall, asked, blank]
                rw [List.filter_cons_of_pos (by simp [call]), List.reduceOption_cons_of_some]
                exact .cons ⟨reply, given, reply_tells reply (handle_line_fits server _ line reply given)⟩
                  (ih _)

theorem written_join (replies : List Reply) :
    written replies = String.join (replies.map fun reply => reply.json ++ "\n") := by
  simp only [written, String.join, List.foldl_map, String.append_assoc]

def Framed (server : Server) (lines : List String) (output : String) : Prop :=
  ∃ replies : List String, output = String.join (replies.map fun json => json ++ "\n") ∧
    List.Forall₂ (RepliesTo server) (calls lines) replies ∧ ∀ json ∈ replies, Json.Plain json.toList

theorem served_framed (server : Server) (bytes : List UInt8) :
    Framed server (lines bytes).1 (serve server bytes).output := by
  have answered := replies_answer server [] (lines bytes).1
  simp only [List.nil_append, List.map_id_fun', id_eq] at answered
  refine ⟨_, ?_, answered, ?_⟩
  · unfold serve
    dsimp only
    rw [written_join, replies_step, List.map_map]
    rfl
  · intro json member
    obtain ⟨reply, _, rfl⟩ := List.mem_map.mp member
    rw [Reply.json, Json.Value.compact, String.toList_ofList]
    exact Json.compact_plain _

structure Served (server : Server) (bytes : List UInt8) : Prop where
  text : ∀ cs, bytes = encode (String.ofList cs) →
    Framed server (textLines cs) (serve server bytes).output ∧ (serve server bytes).failure = none
  broken : ∀ before fault, Broken before fault bytes →
    (serve server bytes).output = (serve server (encode (String.ofList before))).output ∧
      (serve server bytes).failure = some fault
  either : (∃ text, bytes = encode text) ∨ ∃ before fault, Broken before fault bytes

end MarkdownServer.Stream
