import Mathlib.Data.List.Infix
import MarkdownServer.Proofs.Session.Lifecycle
import MarkdownServer.Proofs.Stream.RoundTrip
/- A service whose input stays open is ended by a signal. All lines that are complete by then have been
   served, and what stands behind the last line end is as if it had never come. Without a signal a
   service comes to the same as one whose input is there from the start. -/
set_option autoImplicit false

namespace MarkdownServer.Stream

open Text.Utf8 (Fault)

def completePart (bytes : List UInt8) : List UInt8 :=
  (bytes.reverse.dropWhile (· != lineFeed)).reverse

def Whole (bytes : List UInt8) : Prop := bytes = [] ∨ bytes.getLast? = some lineFeed

structure LongestWhole (part bytes : List UInt8) : Prop where
  front : part <+: bytes
  whole : Whole part
  longest : ∀ other, other <+: bytes → Whole other → other <+: part

theorem complete_part_single (body : List UInt8) (single : lineFeed ∉ body) : completePart body = [] := by
  have other : ∀ b ∈ body.reverse, (b != lineFeed) = true := fun b member =>
    other_bytes body single b (List.mem_reverse.mp member)
  unfold completePart
  rw [← List.append_nil body.reverse, List.dropWhile_append_of_pos other]
  rfl

theorem complete_part_line (body rest : List UInt8) :
    completePart (body ++ lineFeed :: rest) = body ++ lineFeed :: completePart rest := by
  have split : (body ++ lineFeed :: rest).reverse = rest.reverse ++ (lineFeed :: body.reverse) := by simp
  unfold completePart
  rw [split, List.dropWhile_append]
  split
  · rename_i none
    rw [List.isEmpty_iff.mp none, List.dropWhile_cons_of_neg (by decide)]
    simp
  · simp

theorem whole_front (body rest other part : List UInt8) (single : lineFeed ∉ body)
    (front : other <+: body ++ lineFeed :: rest) (whole : Whole other)
    (longest : ∀ left, left <+: rest → Whole left → left <+: part) :
    other <+: body ++ lineFeed :: part := by
  rcases whole with rfl | last
  · exact List.nil_prefix
  have member := List.mem_of_getLast? last
  rcases List.prefix_or_prefix_of_prefix front (List.prefix_append body _) with short | ⟨more, rfl⟩
  · exact absurd (short.subset member) single
  rw [List.prefix_append_right_inj] at front ⊢
  cases more with
  | nil => exact absurd (List.append_nil body ▸ member) single
  | cons b left =>
      obtain ⟨rfl, further⟩ := List.cons_prefix_cons.mp front
      refine List.cons_prefix_cons.mpr ⟨rfl, longest left further ?_⟩
      cases left with
      | nil => exact .inl rfl
      | cons c left => exact .inr (by simpa [List.getLast?_append, List.getLast?_cons] using last)

theorem complete_part_longest (bytes : List UInt8) : LongestWhole (completePart bytes) bytes := by
  induction bytes using line_by_line lineFeed with
  | nil => exact ⟨List.prefix_refl [], .inl rfl, fun _ front _ => front⟩
  | last body single =>
      rw [complete_part_single body single]
      refine ⟨List.nil_prefix, .inl rfl, fun other front whole => ?_⟩
      rcases whole with rfl | last
      · exact List.prefix_refl []
      · exact absurd (front.subset (List.mem_of_getLast? last)) single
  | line body rest single ih =>
      rw [complete_part_line]
      refine ⟨?_, .inr ?_, fun other front whole => ?_⟩
      · exact (List.prefix_append_right_inj body).mpr ((List.prefix_cons_inj lineFeed).mpr ih.front)
      · rcases ih.whole with none | last
        · simp [none]
        · simp [List.getLast?_append, List.getLast?_cons, last]
      · exact whole_front body rest other (completePart rest) single front whole ih.longest

theorem step_stays_open (server : Server) (service : Service) (line : String)
    (awake : service.session.isShutDown = false) :
    (service.step server line).session.isShutDown = false := by
  unfold Service.step
  split
  · exact awake
  · have moves := Session.act_moves server service.session (.line line)
    dsimp only [Session.act] at moves ⊢
    generalize service.session = before at awake moves ⊢
    generalize (server.handleLine before line).session = next at moves ⊢
    cases moves with
    | stays => exact awake
    | opens | confirms => rfl

def readable (ended : Bool) (bytes : List UInt8) : List UInt8 :=
  if ended then bytes else completePart bytes

def stopOf (ended : Bool) : Option Fault → Stop
  | some fault => .failed fault
  | none => if ended then .ended else .waiting

structure Drained (drained : Service × Stop) (served : Service) (stop : Stop) : Prop where
  replies : drained.1.replies = served.replies
  log : drained.1.log = served.log
  stop : drained.2 = stop

theorem drain_next (server : Server) (ended : Bool) (service : Service) (bytes : List UInt8)
    (awake : service.session.isShutDown = false) :
    service.drain server ended bytes =
      match nextLine ended bytes with
      | .line line rest => (service.step server line).drain server ended rest
      | .ended => ({ service with session := service.session.shutDown }, .ended)
      | .failed fault => (service, .failed fault)
      | .waiting => (service, .waiting) := by
  rw [Service.drain, if_neg (by simp [awake])]
  split <;> rename_i next <;> simp only [next]

theorem drain_nothing (server : Server) (ended : Bool) (service : Service)
    (awake : service.session.isShutDown = false) :
    Drained (service.drain server ended []) service (stopOf ended none) := by
  rw [drain_next server ended service [] awake]
  cases ended <;> exact ⟨rfl, rfl, rfl⟩

theorem drain_served (server : Server) (ended : Bool) (service : Service) (bytes : List UInt8)
    (awake : service.session.isShutDown = false) :
    Drained (service.drain server ended bytes)
      ((lines (readable ended bytes)).1.foldl (Service.step server) service)
      (stopOf ended (lines (readable ended bytes)).2) := by
  induction bytes using line_by_line lineFeed generalizing service with
  | nil =>
      have none : readable ended [] = [] := by cases ended <;> rfl
      rw [none]
      exact drain_nothing server ended service awake
  | last body single filled =>
      have next := next_line_partial ended body single
      rw [drain_next server ended service body awake]
      cases ended with
      | false =>
          have none : readable false body = [] := complete_part_single body single
          rw [next, none]
          exact ⟨rfl, rfl, rfl⟩
      | true =>
          have all : readable true body = body := rfl
          rw [if_neg (by decide), if_neg (by simpa using filled)] at next
          rw [next, all, lines_last body single filled]
          cases read : lineOf body with
          | error fault =>
              rw [of_segment_error body [] fault read]
              exact ⟨rfl, rfl, rfl⟩
          | ok line =>
              rw [of_segment_ok body [] line read]
              exact drain_nothing server true (service.step server line)
                (step_stays_open server service line awake)
  | line body rest single ih =>
      have next := next_line_whole ended body rest single
      have more : readable ended (body ++ lineFeed :: rest) = body ++ lineFeed :: readable ended rest := by
        cases ended with
        | true => rfl
        | false => exact complete_part_line body rest
      rw [drain_next server ended service _ awake, next, more]
      cases read : lineOf (body ++ [lineFeed]) with
      | error fault =>
          rw [of_segment_error _ rest fault read, lines_faulty_line body _ fault single read]
          exact ⟨rfl, rfl, rfl⟩
      | ok line =>
          rw [of_segment_ok _ rest line read, lines_text_line body _ line single read]
          exact ih (service.step server line) (step_stays_open server service line awake)

def farewell : Option Signal → Option Fault → List Log.Record
  | some signal, none => [signalRecord signal]
  | _, _ => []

theorem run_served (server : Server) (bytes : List UInt8) (signal : Option Signal) :
    run server bytes signal =
      let report := serve server (readable signal.isNone bytes)
      ⟨report.output, report.failure, report.log ++ farewell signal report.failure⟩ := by
  have drained := drain_served server signal.isNone .start bytes rfl
  unfold run serve
  generalize Service.drain server signal.isNone .start bytes = result at drained ⊢
  obtain ⟨service, stop⟩ := result
  obtain ⟨replies, log, rfl⟩ := drained
  dsimp only at replies log ⊢
  rw [replies, log]
  cases (lines (readable signal.isNone bytes)).2 <;> cases signal <;> simp [stopOf, Stop.failure?, farewell]

-- What a signal does to a service, and what it leaves alone.
structure Interrupted (server : Server) (bytes : List UInt8) (signal : Signal) : Prop where
  output : (run server bytes (some signal)).output = (serve server (completePart bytes)).output
  failure : (run server bytes (some signal)).failure = (serve server (completePart bytes)).failure
  log : (run server bytes (some signal)).log =
    (serve server (completePart bytes)).log ++
      farewell (some signal) (serve server (completePart bytes)).failure

theorem signal_loses_no_line (server : Server) (bytes : List UInt8) :
    LongestWhole (completePart bytes) bytes ∧ (∀ signal, Interrupted server bytes signal) ∧
      run server bytes none = serve server bytes := by
  refine ⟨complete_part_longest bytes, fun signal => ?_, ?_⟩
  · have served := run_served server bytes (some signal)
    exact ⟨by rw [served]; rfl, by rw [served]; rfl, by rw [served]; rfl⟩
  · have served := run_served server bytes none
    simpa [readable, farewell] using served

end MarkdownServer.Stream
