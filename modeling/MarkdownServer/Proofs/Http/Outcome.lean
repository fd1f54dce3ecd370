import MarkdownServer.Http.Service
import MarkdownServer.Proofs.Http.Header
/- What one request can come to. Each case of `Outcome` names one of the answers with all that
   decides it and what it does to the store, so that no later proof opens the handlers again. -/
set_option autoImplicit false

namespace MarkdownServer.Http

open Protocol (Message Refusal Reply)

structure Posts (limits : Limits) (request : Request) (text : String) : Prop where
  route : Route.ofPath request.path = .messages
  method : request.method = "POST"
  small : request.body.length ≤ limits.body
  decoded : Text.Utf8.decode request.body = .ok text

def Silent (response : Response) : Prop := ∀ id, (sessionHeader, id) ∉ response.headers

def responseTo : Option Reply → Response
  | some reply => .json 200 reply
  | none => .empty 202

inductive Outcome (service : Service) (now : Nat) (newId : String) (request : Request) : Handled → Prop where
  | aside (response : Response) (silent : Silent response)
      (unread : ∀ text, ¬ Posts service.limits request text) :
      Outcome service now newId request ⟨response, service, []⟩
  | refused (text : String) (refusal : Refusal) (posted : Posts service.limits request text)
      (parsed : Message.parse text = .error refusal) :
      Outcome service now newId request ⟨.json 400 (.failure refusal.failure), service, []⟩
  | opened (text : String) (message : Message) (reply : Reply)
      (posted : Posts service.limits request text) (parsed : Message.parse text = .ok message)
      (opens : Service.opensSession message = true)
      (answered : (service.server.handle .awaiting message).reply = some reply)
      (succeeded : reply.isFailure = false) (log : List Log.Record) :
      Outcome service now newId request ⟨(Response.json 200 reply).withHeader sessionHeader newId,
        ⟨service.server,
          service.store.insert newId (service.server.handle .awaiting message).session now⟩, log⟩
  | unopened (text : String) (message : Message) (response : Response)
      (posted : Posts service.limits request text) (parsed : Message.parse text = .ok message)
      (opens : Service.opensSession message = true) (silent : Silent response)
      (log : List Log.Record) :
      Outcome service now newId request ⟨response, service, log⟩
  | unnamed (text : String) (message : Message) (posted : Posts service.limits request text)
      (parsed : Message.parse text = .ok message) (other : Service.opensSession message = false)
      (unnamed : ∀ id, ¬ request.Names id) :
      Outcome service now newId request ⟨Service.missingSession message.id?, service, []⟩
  | lost (text : String) (message : Message) (id : String) (posted : Posts service.limits request text)
      (parsed : Message.parse text = .ok message) (other : Service.opensSession message = false)
      (named : request.Names id) (missed : (service.store.touch id now).1 = none)
      (log : List Log.Record) :
      Outcome service now newId request
        ⟨Service.sessionError 404 message.id? "Unknown session",
          ⟨service.server, (service.store.touch id now).2⟩, log⟩
  | continued (text : String) (message : Message) (id : String) (session : Session)
      (posted : Posts service.limits request text) (parsed : Message.parse text = .ok message)
      (other : Service.opensSession message = false) (named : request.Names id)
      (hit : (service.store.touch id now).1 = some session) (log : List Log.Record) :
      Outcome service now newId request
        ⟨responseTo (service.server.handle session message).reply,
          ⟨service.server, (service.store.touch id now).2.update id
            (service.server.handle session message).session⟩, log⟩
  | deleted (id : String) (method : request.method = "DELETE") (named : request.Names id)
      (log : List Log.Record) :
      Outcome service now newId request
        ⟨.empty 204, ⟨service.server, (service.store.remove id).2⟩, log⟩

theorem text_silent (status : Nat) (body : String) : Silent (.text status body) := by
  simp [Silent, Response.text, sessionHeader]

theorem empty_silent (status : Nat) : Silent (.empty status) := by
  simp [Silent, Response.empty]

theorem json_silent (status : Nat) (reply : Reply) : Silent (.json status reply) := by
  simp [Silent, Response.json, sessionHeader]

theorem header_silent (response : Response) (name value : String) (other : name ≠ sessionHeader)
    (silent : Silent response) : Silent (response.withHeader name value) := by
  intro id member
  obtain old | new := List.mem_append.mp member
  · exact silent id old
  · exact other (Prod.mk.inj (List.mem_singleton.mp new)).1.symm

namespace Service

theorem open_session_outcome (service : Service) (now : Nat) (newId : String) (request : Request)
    (text : String) (message : Message) (posted : Posts service.limits request text)
    (parsed : Message.parse text = .ok message) (opens : opensSession message = true) :
    Outcome service now newId request (service.openSession now newId message) := by
  unfold openSession
  dsimp only
  split
  · exact .unopened text message _ posted parsed opens (empty_silent 202) _
  · exact .unopened text message _ posted parsed opens (json_silent 200 _) _
  · rename_i reply successful answered
    refine .opened text message reply posted parsed opens answered ?_ _
    cases reply with
    | success id result => rfl
    | failure f => exact absurd rfl (successful f)

theorem continue_session_outcome (service : Service) (now : Nat) (newId id : String)
    (request : Request) (text : String) (message : Message)
    (posted : Posts service.limits request text) (parsed : Message.parse text = .ok message)
    (other : opensSession message = false) (named : request.Names id) :
    Outcome service now newId request (service.continueSession now id message) := by
  have lost := @Outcome.lost service now newId request text message id posted parsed other named
  have continued (session : Session) :=
    @Outcome.continued service now newId request text message id session posted parsed other named
  unfold continueSession
  generalize service.store.touch id now = touched at lost continued ⊢
  obtain ⟨found, store⟩ := touched
  cases found with
  | none => exact lost rfl _
  | some session =>
      replace continued := continued session rfl (service.server.handle session message).log
      dsimp only at continued ⊢
      cases answered : (service.server.handle session message).reply with
      | none =>
          rw [answered] at continued
          exact continued
      | some reply =>
          rw [answered] at continued
          exact continued

theorem post_outcome (service : Service) (now : Nat) (newId : String) (request : Request)
    (route : Route.ofPath request.path = .messages) (method : request.method = "POST") :
    Outcome service now newId request (service.post now newId request) := by
  unfold post
  split
  · rename_i large
    refine .aside _ (text_silent _ _) fun text posted => ?_
    exact absurd posted.small (Nat.not_le.mpr large)
  rename_i small
  split
  · rename_i fault failed
    refine .aside _ (text_silent _ _) fun text posted => ?_
    rw [posted.decoded] at failed
    cases failed
  rename_i text decoded
  have posted : Posts service.limits request text := ⟨route, method, Nat.not_lt.mp small, decoded⟩
  unfold postMessage
  split
  · rename_i refusal parsed
    exact .refused text refusal posted parsed
  rename_i message parsed
  split
  · rename_i opens
    exact open_session_outcome service now newId request text message posted parsed opens
  rename_i other
  replace other := Bool.eq_false_iff.mpr other
  split
  · rename_i unnamed
    exact .unnamed text message posted parsed other (request.session_none_iff.mp unnamed)
  · rename_i id named
    have named := (request.session_iff id).mp named
    exact continue_session_outcome service now newId id request text message posted parsed other named

theorem unread (limits : Limits) (request : Request)
    (elsewhere : Route.ofPath request.path = .messages → request.method ≠ "POST") (text : String) :
    ¬ Posts limits request text :=
  fun posted => elsewhere posted.route posted.method

theorem delete_outcome (service : Service) (now : Nat) (newId : String) (request : Request)
    (method : request.method = "DELETE") :
    Outcome service now newId request (service.delete request) := by
  have elsewhere := unread service.limits request fun _ => by rw [method]; decide
  unfold delete
  split
  · exact .aside _ (json_silent 400 _) elsewhere
  · rename_i id named
    split
    · exact .aside _ (empty_silent 404) elsewhere
    · rename_i store removed
      have := @Outcome.deleted service now newId request id method ((request.session_iff id).mp named)
      rw [removed] at this
      exact this _

theorem answer_outcome (service : Service) (now : Nat) (newId : String) (request : Request) :
    Outcome service now newId request (service.answer now newId request) := by
  unfold answer
  split
  · rename_i route method
    exact post_outcome service now newId request route method
  · rename_i route method
    exact delete_outcome service now newId request method
  · rename_i route method
    exact .aside _ (text_silent 200 _) (unread _ _ fun messages => by rw [route] at messages; cases messages)
  · rename_i route method
    exact .aside _ (text_silent 200 _) (unread _ _ fun messages => by rw [route] at messages; cases messages)
  · rename_i post _ _ _
    have elsewhere := unread service.limits request post
    split
    · exact .aside _ (header_silent _ "allow" _ (by decide) (empty_silent 405)) elsewhere
    · exact .aside _ (empty_silent 404) elsewhere

-- The same response, but for headers that concern browsers.
structure Decorates (response plain : Response) : Prop where
  status : response.status = plain.status
  body : response.body = plain.body
  session : ∀ id, (sessionHeader, id) ∈ response.headers → (sessionHeader, id) ∈ plain.headers

theorem decorates_header (response plain : Response) (name value : String)
    (other : name ≠ sessionHeader) (decorates : Decorates response plain) :
    Decorates (response.withHeader name value) plain := by
  refine ⟨decorates.status, decorates.body, fun id member => ?_⟩
  obtain old | new := List.mem_append.mp member
  · exact decorates.session id old
  · exact absurd (Prod.mk.inj (List.mem_singleton.mp new)).1.symm other

theorem decorates_refl (response : Response) : Decorates response response :=
  ⟨rfl, rfl, fun _ member => member⟩

theorem preflight_silent (route : Route) : Silent (preflight route) := by
  cases route <;>
    simp [Silent, preflight, anyOrigin, Response.withHeader, Response.empty, Route.allowed, sessionHeader]

theorem respond_outcome (service : Service) (now : Nat) (newId : String) (request : Request) :
    ∃ handled, Outcome service now newId request handled ∧
      (service.respond now newId request).service = handled.service ∧
      Decorates (service.respond now newId request).response handled.response := by
  unfold respond
  split
  · rename_i options
    refine ⟨_, .aside _ (preflight_silent _) (unread _ _ fun _ => by rw [options]; decide), rfl, ?_⟩
    exact decorates_refl _
  · refine ⟨_, answer_outcome service now newId request, rfl, ?_⟩
    apply decorates_header _ _ _ _ (by decide)
    apply decorates_header _ _ _ _ (by decide)
    exact decorates_refl _

end Service
end MarkdownServer.Http
