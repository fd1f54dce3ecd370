import Mathlib.Data.List.Induction
import MarkdownServer.Proofs.Server.Turn
/- The life of a session over whole runs: any lines in any order, with shutdowns in between. The
   invariant `Justified` ties the state of a session to the lines that led to it; one action keeps
   it, and so does every run. -/
set_option autoImplicit false

namespace MarkdownServer.Session

open Protocol

inductive Action where
  | line (text : String)
  | shutDown

def act (server : Server) (session : Session) : Action → Session × Option Reply
  | .line text => ((server.handleLine session text).session, (server.handleLine session text).reply)
  | .shutDown => (session.shutDown, none)

def after (server : Server) (past : List Action) : Session :=
  past.foldl (fun session action => (act server session action).1) .awaiting

def replyTo (server : Server) (past : List Action) (next : Action) : Option Reply :=
  (act server (after server past) next).2

theorem after_append (server : Server) (past future : List Action) :
    after server (past ++ future) =
      future.foldl (fun session action => (act server session action).1) (after server past) := by
  simp only [after, List.foldl_append]

theorem after_concat (server : Server) (past : List Action) (next : Action) :
    after server (past ++ [next]) = (act server (after server past) next).1 :=
  after_append server past [next]

-- The moves between states. A line leads one step on or nowhere, a shutdown to the last state.
inductive Moves : Action → Session → Session → Prop where
  | stays (text : String) (session : Session) : Moves (.line text) session session
  | opens (text : String) (version : Version) : Moves (.line text) .awaiting (.initialising version)
  | confirms (text : String) (version : Version) :
      Moves (.line text) (.initialising version) (.running version)
  | ends (session : Session) : Moves .shutDown session (.shuttingDown session.version?)

theorem act_moves (server : Server) (session : Session) (action : Action) :
    Moves action session (act server session action).1 := by
  cases action with
  | shutDown => exact .ends session
  | line text =>
      have turn := Server.handle_line_turn server session text
      dsimp only [act]
      generalize server.handleLine session text = answer at turn ⊢
      cases turn with
      | refused refusal parsed => exact .stays text session
      | opened request params parsed asked awaiting log =>
          rw [awaiting]
          exact .opens text _
      | confirmed version parsed initialising log =>
          rw [initialising]
          exact .confirms text version
      | ignored method parsed unfit => exact .stays text session
      | failed request failure parsed own => exact .stays text session
      | served request result log parsed other running => exact .stays text session

theorem moves_keep_version (action : Action) (before next : Session) (version : Version)
    (moves : Moves action before next) (set : before.version? = some version) :
    next.version? = some version := by
  cases moves with
  | stays text session => exact set
  | opens text version => cases set
  | confirms text version => exact set
  | ends session => exact set

theorem moves_keep_shut_down (action : Action) (next : Session) (version : Option Version)
    (moves : Moves action (.shuttingDown version) next) : next = .shuttingDown version := by
  cases moves with
  | stays text session => rfl
  | ends session => rfl

theorem after_induction (server : Server) (P : Session → Prop) (past future : List Action)
    (start : P (after server past))
    (step : ∀ action before next, Moves action before next → P before → P next) :
    P (after server (past ++ future)) := by
  induction future generalizing past with
  | nil => simpa using start
  | cons action future ih =>
      have next : P (after server (past ++ [action])) := by
        rw [after_concat]
        exact step action _ _ (act_moves server _ action) start
      simpa using ih (past ++ [action]) next

def Agreed (requested : String) (version : Version) : Prop :=
  version.name = requested ∨
    (∀ other ∈ Version.all, other.name ≠ requested) ∧ version = Version.newest

theorem negotiate_agreed (requested : String) : Agreed requested (Version.negotiate requested) := by
  unfold Version.negotiate
  cases search : Version.all.find? fun version => version.name == requested with
  | none =>
      right
      refine ⟨fun other member same => ?_, rfl⟩
      exact List.find?_eq_none.mp search other member (by simpa using same)
  | some version =>
      left
      have same := List.find?_some search
      exact eq_of_beq same

def Opened (server : Server) (earlier : List Action) (line : String) (version : Version) : Prop :=
  ∃ request params result, Message.parse line = .ok (.request request) ∧ Handshake request params ∧
    replyTo server earlier (.line line) = some (.success request.id result) ∧
    Agreed params.version version

def Negotiated (server : Server) (past : List Action) (version : Version) : Prop :=
  ∃ earlier opening later, past = earlier ++ .line opening :: later ∧
    Opened server earlier opening version

def Confirmed (server : Server) (past : List Action) (version : Version) : Prop :=
  ∃ earlier opening between confirming later,
    past = earlier ++ .line opening :: (between ++ .line confirming :: later) ∧
    Opened server earlier opening version ∧
    Message.parse confirming = .ok (.notification "notifications/initialized")

theorem negotiated_append (server : Server) (past future : List Action) (version : Version)
    (negotiated : Negotiated server past version) : Negotiated server (past ++ future) version := by
  obtain ⟨earlier, opening, later, split, opened⟩ := negotiated
  exact ⟨earlier, opening, later ++ future, by simp [split], opened⟩

theorem confirmed_append (server : Server) (past future : List Action) (version : Version)
    (confirmed : Confirmed server past version) : Confirmed server (past ++ future) version := by
  obtain ⟨earlier, opening, between, confirming, later, split, opened, parsed⟩ := confirmed
  exact ⟨earlier, opening, between, confirming, later ++ future, by simp [split], opened, parsed⟩

theorem confirmed_negotiated (server : Server) (past : List Action) (version : Version)
    (confirmed : Confirmed server past version) : Negotiated server past version := by
  obtain ⟨earlier, opening, between, confirming, later, split, opened, _⟩ := confirmed
  exact ⟨earlier, opening, between ++ .line confirming :: later, split, opened⟩

theorem negotiated_confirmed (server : Server) (past : List Action) (version : Version) (line : String)
    (negotiated : Negotiated server past version)
    (parsed : Message.parse line = .ok (.notification "notifications/initialized")) :
    Confirmed server (past ++ [.line line]) version := by
  obtain ⟨earlier, opening, later, split, opened⟩ := negotiated
  exact ⟨earlier, opening, later, line, [], by simp [split], opened, parsed⟩

def Justified (server : Server) (past : List Action) : Session → Prop
  | .awaiting => .shutDown ∉ past
  | .initialising version => .shutDown ∉ past ∧ Negotiated server past version
  | .running version => .shutDown ∉ past ∧ Confirmed server past version
  | .shuttingDown version? => ∀ version, version? = some version → Negotiated server past version

theorem justified_version (server : Server) (past : List Action) (session : Session) (version : Version)
    (justified : Justified server past session) (set : session.version? = some version) :
    Negotiated server past version := by
  cases session with
  | awaiting => cases set
  | initialising agreed =>
      cases set
      exact justified.2
  | running agreed =>
      cases set
      exact confirmed_negotiated server past version justified.2
  | shuttingDown agreed => exact justified version set

-- A line that leaves the session as it is adds nothing that could be held against it.
theorem justified_line (server : Server) (past : List Action) (session : Session) (line : String)
    (justified : Justified server past session) :
    Justified server (past ++ [.line line]) session := by
  have quiet (open_ : .shutDown ∉ past) : .shutDown ∉ past ++ [.line line] := by simpa using open_
  cases session with
  | awaiting => exact quiet justified
  | initialising version => exact ⟨quiet justified.1, negotiated_append server past _ version justified.2⟩
  | running version => exact ⟨quiet justified.1, confirmed_append server past _ version justified.2⟩
  | shuttingDown agreed =>
      exact fun version set => negotiated_append server past _ version (justified version set)

theorem act_justified (server : Server) (past : List Action) (next : Action)
    (justified : Justified server past (after server past)) :
    Justified server (past ++ [next]) (act server (after server past) next).1 := by
  cases next with
  | shutDown =>
      intro version set
      exact negotiated_append server past _ version (justified_version server past _ version justified set)
  | line text =>
      have turn := Server.handle_line_turn server (after server past) text
      dsimp only [act]
      generalize result : server.handleLine (after server past) text = answer at turn ⊢
      cases turn with
      | refused refusal parsed => exact justified_line server past _ text justified
      | opened request params parsed asked awaiting log =>
          rw [awaiting] at justified
          refine ⟨(justified_line server past .awaiting text justified), past, text, [], rfl, ?_⟩
          have replied : replyTo server past (.line text) = some (.success request.id
              (Server.handshakeResult (Version.negotiate params.version))) := by
            simp only [replyTo, act, result]
          exact ⟨request, params, _, parsed, asked, replied, negotiate_agreed params.version⟩
      | confirmed version parsed initialising log =>
          rw [initialising] at justified
          exact ⟨(justified_line server past (.initialising version) text justified).1,
            negotiated_confirmed server past version text justified.2 parsed⟩
      | ignored method parsed unfit => exact justified_line server past _ text justified
      | failed request failure parsed own => exact justified_line server past _ text justified
      | served request result log parsed other running => exact justified_line server past _ text justified

theorem after_justified (server : Server) (past : List Action) :
    Justified server past (after server past) := by
  induction past using List.reverseRecOn with
  | nil => exact List.not_mem_nil
  | append_singleton past next ih =>
      rw [after_concat]
      exact act_justified server past next ih

theorem tools_need_running (server : Server) (session : Session) (line : String) (request : Request)
    (id : RequestId) (result : Json.Value) (parsed : Message.parse line = .ok (.request request))
    (tools : ofTools request)
    (served : (server.handleLine session line).reply = some (.success id result)) :
    session.isRunning = true := by
  have turn := Server.handle_line_turn server session line
  generalize server.handleLine session line = answer at turn served
  cases turn with
  | refused refusal refused => cases served
  | opened other params parsed' asked awaiting log =>
      cases parsed.symm.trans parsed'
      rcases tools with method | method <;> exact absurd (asked.method.symm.trans method) (by decide)
  | confirmed version parsed' initialising log => cases served
  | ignored method parsed' unfit => cases served
  | failed other failure parsed' own => cases served
  | served other value log parsed' notInitialize running =>
      cases parsed.symm.trans parsed'
      exact running tools

-- What holds at every point `past` of every run, and of whatever comes `next`.
structure Safe (server : Server) (past : List Action) (next : Action) : Prop where
  moves : Moves next (after server past) (after server (past ++ [next]))
  final : ∀ version, after server past = .shuttingDown version →
    ∀ future, after server (past ++ future) = .shuttingDown version
  unset : after server past = .awaiting → (after server past).version? = none
  set : (after server past).version? = none →
    after server past = .awaiting ∨ after server past = .shuttingDown none
  supported : ∀ version, (after server past).version? = some version → version ∈ Version.all
  fixed : ∀ version, (after server past).version? = some version →
    ∀ future, (after server (past ++ future)).version? = some version
  agreed : ∀ version, (after server past).version? = some version → Negotiated server past version
  earned : ∀ line request id result, next = .line line →
    Message.parse line = .ok (.request request) → ofTools request →
    replyTo server past next = some (.success id result) →
    .shutDown ∉ past ∧ ∃ version, Confirmed server past version

theorem lifecycle_safe (server : Server) (past : List Action) (next : Action) :
    Safe server past next where
  moves := by
    rw [after_concat]
    exact act_moves server (after server past) next
  final version ended future := by
    apply after_induction server (· = .shuttingDown version) past future ended
    rintro action _ later moves rfl
    exact moves_keep_shut_down action later version moves
  unset awaiting := by rw [awaiting]; rfl
  set unset := by
    cases state : after server past with
    | awaiting => exact .inl rfl
    | initialising version => rw [state] at unset; cases unset
    | running version => rw [state] at unset; cases unset
    | shuttingDown version =>
        rw [state] at unset
        exact .inr (congrArg Session.shuttingDown unset)
  supported version _ := by cases version <;> decide
  fixed version set future := by
    apply after_induction server (·.version? = some version) past future set
    intro action before later moves set
    exact moves_keep_version action before later version moves set
  agreed version set := justified_version server past _ version (after_justified server past) set
  earned line request id result here parsed tools served := by
    subst here
    have running := tools_need_running server (after server past) line request id result parsed tools served
    have justified := after_justified server past
    cases state : after server past with
    | running version =>
        rw [state] at justified
        exact ⟨justified.1, version, justified.2⟩
    | awaiting => rw [state] at running; cases running
    | initialising version => rw [state] at running; cases running
    | shuttingDown version => rw [state] at running; cases running

end MarkdownServer.Session
