import MarkdownServer.Proofs.Http.Outcome
import MarkdownServer.Proofs.Http.Store
import MarkdownServer.Proofs.Stream.Lines
/- A session of the HTTP service is a session served over a stream. The store keeps for each id the
   state that a stream of the same messages would be in, whatever the other clients do. -/
set_option autoImplicit false

namespace MarkdownServer.Http

open Protocol (Message Reply)

structure Arrival where
  now : Nat
  newId : String
  request : Request

namespace Service

def receive (service : Service) (arrival : Arrival) : Handled :=
  service.respond arrival.now arrival.newId arrival.request

def exchanges (service : Service) : List Arrival → List (Arrival × Handled)
  | [] => []
  | arrival :: rest =>
      (arrival, service.receive arrival) :: (service.receive arrival).service.exchanges rest

end Service

def isMessage (limits : Limits) (id : String) (request : Request) : Bool :=
  Route.ofPath request.path == .messages && request.method == "POST" &&
    decide (request.Names id) && decide (request.body.length ≤ limits.body) &&
    (Text.Utf8.decode request.body).isOk

-- The message could be a line of a stream: it has no line feed, is not blank, and opens no session.
structure Fit (request : Request) : Prop where
  single : Stream.lineFeed ∉ request.body
  visible : ∀ text, Text.Utf8.decode request.body = .ok text → Text.allBlank text = false
  continues : ∀ text message, Text.Utf8.decode request.body = .ok text →
    Message.parse text = .ok message → Service.opensSession message = false

def messagesOf (limits : Limits) (id : String) (run : List (Arrival × Handled)) :
    List (Arrival × Handled) :=
  run.filter fun exchange => isMessage limits id exchange.1.request

inductive Carries : Response → Option Reply → Prop where
  | reply (response : Response) (reply : Reply) (body : response.body = reply.json)
      (status : response.status ≠ 202) : Carries response (some reply)
  | accepted (response : Response) (body : response.body = "") (status : response.status = 202) :
      Carries response none

theorem is_message_posts (limits : Limits) (id : String) (request : Request)
    (message : isMessage limits id request = true) :
    ∃ text, Posts limits request text ∧ request.Names id := by
  simp only [isMessage, Bool.and_eq_true, beq_iff_eq, decide_eq_true_eq] at message
  obtain ⟨⟨⟨⟨route, method⟩, named⟩, small⟩, decoded⟩ := message
  cases read : Text.Utf8.decode request.body with
  | error fault =>
      rw [read] at decoded
      cases decoded
  | ok text => exact ⟨text, ⟨route, method, small, read⟩, named⟩

theorem posts_is_message (limits : Limits) (id text : String) (request : Request)
    (posted : Posts limits request text) (named : request.Names id) :
    isMessage limits id request = true := by
  simp [isMessage, posted.route, posted.method, posted.small, posted.decoded, named, Except.isOk,
    Except.toBool]

theorem posts_unique (limits : Limits) (request : Request) (text other : String)
    (posted : Posts limits request text) (again : Posts limits request other) : text = other := by
  have same := posted.decoded.symm.trans again.decoded
  cases same
  rfl

theorem response_carries (reply : Option Reply) (response : Response)
    (status : response.status = (responseTo reply).status)
    (body : response.body = (responseTo reply).body) : Carries response reply := by
  cases reply with
  | none => exact .accepted response body status
  | some reply => exact .reply response reply body (by simp [status, responseTo, Response.json])

namespace Service

theorem receive_outcome (service : Service) (arrival : Arrival) :
    ∃ handled, Outcome service arrival.now arrival.newId arrival.request handled ∧
      (service.receive arrival).service = handled.service ∧
      Decorates (service.receive arrival).response handled.response :=
  respond_outcome service arrival.now arrival.newId arrival.request

theorem receive_keeps (service : Service) (arrival : Arrival) :
    (service.receive arrival).service.server = service.server ∧
      (service.receive arrival).service.limits = service.limits := by
  obtain ⟨handled, outcome, same, _⟩ := receive_outcome service arrival
  rw [same]
  cases outcome with
  | lost => exact ⟨rfl, Store.touch_limits _ _ _⟩
  | continued => exact ⟨rfl, Store.touch_limits _ _ _⟩
  | _ => exact ⟨rfl, rfl⟩

theorem receive_other (service : Service) (arrival : Arrival) (id : String) (session : Session)
    (fresh : arrival.newId ≠ id) (other : isMessage service.limits id arrival.request = false)
    (agrees : service.store.Agrees id session) :
    (service.receive arrival).service.store.Agrees id session := by
  obtain ⟨handled, outcome, same, _⟩ := receive_outcome service arrival
  rw [same]
  cases outcome with
  | opened => exact Store.insert_agrees_other _ _ _ _ _ _ fresh agrees
  | lost => exact Store.touch_agrees _ _ _ _ _ agrees
  | continued text message named session' posted _ _ naming =>
      have different : named ≠ id := by
        rintro rfl
        rw [posts_is_message service.limits named text arrival.request posted naming] at other
        cases other
      exact Store.update_agrees_other _ _ _ _ _ different (Store.touch_agrees _ _ _ _ _ agrees)
  | deleted => exact Store.remove_agrees _ _ _ _ agrees
  | _ => exact agrees

-- A message of the session is handled as if it were the next line of a stream.
theorem receive_message (service : Service) (arrival : Arrival) (id text : String) (session : Session)
    (posted : Posts service.limits arrival.request text) (named : arrival.request.Names id)
    (fit : Fit arrival.request) (agrees : service.store.Agrees id session)
    (live : (service.receive arrival).service.store.Live id) :
    (service.receive arrival).service.store.Agrees id (service.server.handleLine session text).session ∧
      Carries (service.receive arrival).response (service.server.handleLine session text).reply := by
  obtain ⟨handled, outcome, same, decorates⟩ := receive_outcome service arrival
  rw [same] at live ⊢
  have only (other : String) (again : Posts service.limits arrival.request other) : other = text :=
    posts_unique _ _ _ _ again posted
  unfold Server.handleLine
  cases outcome with
  | aside _ _ unread => exact absurd posted (unread text)
  | refused other refusal again parsed =>
      cases only other again
      rw [parsed]
      exact ⟨agrees, .reply _ _ decorates.body (by simp [decorates.status, Response.json])⟩
  | opened other message _ again parsed opens =>
      cases only other again
      rw [fit.continues _ message posted.decoded parsed] at opens
      cases opens
  | unopened other message _ again parsed opens =>
      cases only other again
      rw [fit.continues _ message posted.decoded parsed] at opens
      cases opens
  | unnamed other message _ _ _ absent => exact absurd named (absent id)
  | lost other message id' again parsed _ named' missed =>
      cases named.unique _ _ _ named'
      exact absurd live (Store.touch_dead _ _ _ missed)
  | continued other message id' found again parsed _ named' hit =>
      cases only other again
      cases named.unique _ _ _ named'
      rw [parsed]
      cases Store.touch_found _ _ _ session found agrees hit
      exact ⟨Store.update_agrees _ _ _, response_carries _ _ decorates.status decorates.body⟩
  | deleted id' method =>
      rw [posted.method] at method
      exact absurd method (by decide)

theorem receive_opening (service : Service) (arrival : Arrival) (id : String)
    (handed : (sessionHeader, id) ∈ (service.receive arrival).response.headers) :
    ∃ text reply, Text.Utf8.decode arrival.request.body = .ok text ∧ Text.allBlank text = false ∧
      (service.server.handleLine .awaiting text).reply = some reply ∧
      (service.receive arrival).response.body = reply.json ∧
      (service.receive arrival).service.store.Agrees id
        (service.server.handleLine .awaiting text).session := by
  obtain ⟨handled, outcome, same, decorates⟩ := receive_outcome service arrival
  have plain := decorates.session id handed
  rw [same, decorates.body]
  cases outcome with
  | opened text message reply posted parsed opens answered =>
      have name : id = arrival.newId := by
        have := List.mem_append.mp plain
        simpa [Response.json, sessionHeader] using this
      have visible : Text.allBlank text = false := by
        cases blank : Text.allBlank text with
        | false => rfl
        | true =>
            rw [Protocol.parse_blank text blank] at parsed
            cases parsed
      refine ⟨text, reply, posted.decoded, visible, ?_, rfl, ?_⟩
      · unfold Server.handleLine
        rw [parsed]
        exact answered
      · unfold Server.handleLine
        rw [parsed, name]
        exact Store.insert_agrees _ _ _ _
  | aside response silent => exact absurd plain (silent id)
  | unopened _ _ response _ _ _ silent => exact absurd plain (silent id)
  | refused => exact absurd plain (json_silent _ _ id)
  | unnamed => exact absurd plain (json_silent _ _ id)
  | lost => exact absurd plain (json_silent _ _ id)
  | continued text message _ session =>
      cases answered : (service.server.handle session message).reply with
      | none =>
          rw [answered] at plain
          exact absurd plain (empty_silent _ id)
      | some reply =>
          rw [answered] at plain
          exact absurd plain (json_silent _ _ id)
  | deleted => exact absurd plain (empty_silent _ id)

theorem exchanges_follow (service : Service) (later : List Arrival) (id : String) (session : Session)
    (agrees : service.store.Agrees id session) (fresh : ∀ arrival ∈ later, arrival.newId ≠ id)
    (lasting : ∀ exchange ∈ service.exchanges later, exchange.2.service.store.Live id)
    (fit : ∀ arrival ∈ later, isMessage service.limits id arrival.request = true → Fit arrival.request) :
    ∃ texts, List.Forall₂ (fun exchange text =>
          Stream.lineFeed ∉ exchange.1.request.body ∧
            Text.Utf8.decode exchange.1.request.body = .ok text)
        (messagesOf service.limits id (service.exchanges later)) texts ∧
      List.Forall₂ Carries
        ((messagesOf service.limits id (service.exchanges later)).map fun exchange => exchange.2.response)
        (Stream.replies service.server session texts) := by
  induction later generalizing service session with
  | nil => exact ⟨[], .nil, .nil⟩
  | cons arrival later ih =>
      obtain ⟨newId, fresh⟩ := List.forall_mem_cons.mp fresh
      obtain ⟨live, lasting⟩ := List.forall_mem_cons.mp lasting
      obtain ⟨fitting, fit⟩ := List.forall_mem_cons.mp fit
      obtain ⟨server, limits⟩ := receive_keeps service arrival
      replace ih := ih (service.receive arrival).service
      rw [server, limits] at ih
      unfold exchanges messagesOf
      cases message : isMessage service.limits id arrival.request with
      | false =>
          have rest := receive_other service arrival id session newId message agrees
          rw [List.filter_cons_of_neg (by simp [message])]
          exact ih session rest fresh lasting fit
      | true =>
          obtain ⟨text, posted, named⟩ := is_message_posts service.limits id arrival.request message
          obtain ⟨rest, carried⟩ :=
            receive_message service arrival id text session posted named (fitting message) agrees live
          obtain ⟨texts, bodies, carries⟩ := ih _ rest fresh lasting fit
          rw [List.filter_cons_of_pos (by exact message)]
          refine ⟨text :: texts, .cons ⟨(fitting message).single, posted.decoded⟩ bodies, ?_⟩
          rw [Stream.replies, if_neg (by simp [(fitting message).visible text posted.decoded])]
          exact .cons carried carries

theorem fit_of_text (request : Request) (text : String)
    (decoded : Text.Utf8.decode request.body = .ok text) (single : Stream.lineFeed ∉ request.body)
    (visible : Text.allBlank text = false)
    (continues : (Message.parse text).toOption.any Service.opensSession = false) : Fit request := by
  refine ⟨single, fun other again => ?_, fun other message again parsed => ?_⟩
  · cases decoded.symm.trans again
    exact visible
  · cases decoded.symm.trans again
    rw [parsed] at continues
    exact continues

def posting (id : Option String) (text : String) : Request :=
  ⟨"POST", "/mcp", (id.map fun id => (sessionHeader, id)).toList, Text.Utf8.encode text⟩

def greeting : String :=
  "\x7b\"jsonrpc\":\"2.0\",\"id\":1,\"method\":\"initialize\",\"params\":\x7b\"protocolVersion\":" ++
    "\"2025-03-26\",\"capabilities\":\x7b\x7d,\"clientInfo\":\x7b\"name\":\"c\",\"version\":\"1\"\x7d\x7d\x7d"

def question : String := "\x7b\"jsonrpc\":\"2.0\",\"id\":2,\"method\":\"ping\"\x7d"

def confirmation : String := "\x7b\"jsonrpc\":\"2.0\",\"method\":\"notifications/initialized\"\x7d"

def visit : List Arrival :=
  [⟨1, "second", posting none greeting⟩, ⟨2, "third", posting (some "first") question⟩,
    ⟨3, "fourth", ⟨"DELETE", "/mcp", [(sessionHeader, "second")], []⟩⟩,
    ⟨4, "fifth", posting (some "first") confirmation⟩]

def bareService : Service := .start ⟨⟨[], by decide⟩⟩ .standard

end Service
end MarkdownServer.Http
