import MarkdownServer.Proofs.Http.Capacity
import MarkdownServer.Proofs.Http.Sweeping
import MarkdownServer.Proofs.Server.Correlation
/- What the service answers to a POST, and what a POST may change. The answer is decided by the first
   of these that tells against the request: the size of the body, its encoding, the message in it, the
   handshake if it asks for one, the header that names a session, and that session. -/
set_option autoImplicit false

namespace MarkdownServer.Http

open Protocol (Message Refusal Reply)

def Response.sessions (response : Response) : List String :=
  (response.headers.filter fun header => header.1 == sessionHeader).map Prod.snd

structure Told where
  status : Nat
  body : String
  sessions : List String

def Response.told (response : Response) : Told :=
  ⟨response.status, response.body, response.sessions⟩

structure IsPost (request : Request) : Prop where
  route : Route.ofPath request.path = .messages
  method : request.method = "POST"

namespace Store

variable (store : Store)

structure MakesRoom (cap : Nat) (active others : List Slot) : Prop where
  free : active.length < cap → others = active
  full : cap ≤ active.length → ∃ evicted ∈ active, others = without evicted.id active ∧
    active.length = others.length + 1 ∧ ∀ slot ∈ active, evicted.lastSeen ≤ slot.lastSeen

structure Opens (next : Store) (id : String) (now : Nat) : Prop where
  added : ∃ version, next.find? id = some ⟨id, .initialising version, now⟩
  others : MakesRoom store.limits.sessions (store.slots.filter fun slot => !isIdle store.limits now slot)
    (without id next.slots)

structure Answers (id : String) (now : Nat) (slot : Slot) : Prop where
  found : store.find? id = some slot
  active : isIdle store.limits now slot = false

theorem make_room_makes_room (sound : store.Sound) :
    MakesRoom store.limits.sessions store.slots store.makeRoom.slots := by
  rw [make_room_slots store sound.few]
  by_cases free : store.size < store.limits.sessions
  · rw [if_pos free]
    exact ⟨fun _ => rfl, fun full => absurd free (Nat.not_lt.mpr full)⟩
  · rw [if_neg free, dropOldest]
    cases found : oldest? store.slots with
    | none =>
        have empty : store.size = 0 := by rw [size, oldest_none _ found, List.length_nil]
        have positive := store.limits.positive
        omega
    | some oldest =>
        obtain ⟨member, least⟩ := oldest_least store.slots oldest found
        have shorter := without_length store.slots oldest sound.single member
        exact ⟨fun below => absurd below free, fun _ => ⟨oldest, member, rfl, shorter.symm, least⟩⟩

theorem insert_opens (sound : store.Sound) (id : String) (version : Protocol.Version) (now : Nat)
    (fresh : id ∉ store.ids) : store.Opens (store.insert id (.initialising version) now) id now := by
  have swept : (store.expire now).Sound := filter_sound store _ sound
  refine ⟨⟨version, find_insert store id _ now⟩, ?_⟩
  rw [insert_others store id _ now fresh]
  exact make_room_makes_room (store.expire now) swept

theorem touch_missed (id : String) (now : Nat)
    (unanswered : ∀ slot, ¬ store.Answers id now slot) :
    store.touch id now = (none, { store with slots := without id store.slots }) := by
  unfold touch
  cases found : store.find? id with
  | none =>
      have gone := without_gone id store.slots ((find_none store id).mp found)
      rw [gone]
  | some slot =>
      have idle : isIdle store.limits now slot = true := by
        by_contra active
        exact unanswered slot ⟨found, by simpa using active⟩
      simp [idle, remove]

theorem touch_update (id : String) (now : Nat) (slot : Slot) (session : Session)
    (answers : store.Answers id now slot) :
    (store.touch id now).1 = some slot.session ∧
      ((store.touch id now).2.update id session).slots =
        store.slots.map fun other => if other.id = id then ⟨id, session, now⟩ else other := by
  obtain ⟨found, active⟩ := answers
  refine ⟨by simp [touch, found, active], ?_⟩
  rw [touch, found]
  simp only [active, Bool.false_eq_true, if_false, update, modify, List.map_map]
  refine List.map_congr_left fun other _ => ?_
  by_cases named : other.id = id <;> simp [named]

end Store

namespace Service

variable (service : Service) (arrival : Arrival)

/- What is told of a POST, and what it leaves of the service. Every request is under exactly one of the
   rules; a handshake may name a session that is open, and that makes no difference. -/
structure PostRules : Prop where
  large : service.limits.body < arrival.request.body.length →
    (service.receive arrival).response.told =
      ⟨413, "Failed to buffer the request body: length limit exceeded", []⟩ ∧
    (service.receive arrival).service = service
  garbled : ∀ fault, arrival.request.body.length ≤ service.limits.body →
    Text.Utf8.decode arrival.request.body = .error fault →
    (service.receive arrival).response.told =
      ⟨400, "Request body didn't contain valid UTF-8: " ++ fault.message, []⟩ ∧
    (service.receive arrival).service = service
  refused : ∀ text refusal, Posts service.limits arrival.request text →
    Message.parse text = .error refusal →
    (service.receive arrival).response.told = ⟨400, (Reply.failure refusal.failure).json, []⟩ ∧
    (service.receive arrival).service = service
  opening : ∀ text message, Posts service.limits arrival.request text →
    Message.parse text = .ok message → opensSession message = true →
    ∃ reply, (service.server.handle .awaiting message).reply = some reply ∧
      (service.receive arrival).response.told =
        ⟨200, reply.json, if reply.isFailure then [] else [arrival.newId]⟩ ∧
      (reply.isFailure = true → (service.receive arrival).service = service) ∧
      (reply.isFailure = false → arrival.newId ∉ service.store.ids →
        (service.receive arrival).service.server = service.server ∧
        service.store.Opens (service.receive arrival).service.store arrival.newId arrival.now)
  unnamed : ∀ text message, Posts service.limits arrival.request text →
    Message.parse text = .ok message → opensSession message = false → (∀ id, ¬ arrival.request.Names id) →
    (service.receive arrival).response.told =
      ⟨400, (Reply.failure (.invalidRequest message.id? "Missing Mcp-Session-Id header")).json, []⟩ ∧
    (service.receive arrival).service = service
  lost : ∀ text message id, Posts service.limits arrival.request text →
    Message.parse text = .ok message → opensSession message = false →
    arrival.request.Names id → (∀ slot, ¬ service.store.Answers id arrival.now slot) →
    (service.receive arrival).response.told =
      ⟨404, (Reply.failure (.invalidRequest message.id? "Unknown session")).json, []⟩ ∧
    (service.receive arrival).service =
      { service with store := { service.store with slots := Store.without id service.store.slots } }
  continued : ∀ text message id slot, Posts service.limits arrival.request text →
    Message.parse text = .ok message → opensSession message = false →
    arrival.request.Names id → service.store.Answers id arrival.now slot →
    let answer := service.server.handle slot.session message
    (∀ method, message = .notification method →
      (service.receive arrival).response.told = ⟨202, "", []⟩) ∧
    (∀ request, message = .request request → ∃ reply, answer.reply = some reply ∧
      (service.receive arrival).response.told = ⟨200, reply.json, []⟩) ∧
    (service.receive arrival).service = { service with store := { service.store with
      slots := service.store.slots.map fun other =>
        if other.id = id then ⟨id, answer.session, arrival.now⟩ else other } }

theorem post_text (now : Nat) (newId text : String) (request : Request)
    (posted : Posts service.limits request text) :
    service.post now newId request = service.postMessage now newId request text := by
  unfold post
  rw [if_neg (Nat.not_lt.mpr posted.small), posted.decoded]

theorem post_refused (now : Nat) (newId text : String) (request : Request) (refusal : Refusal)
    (posted : Posts service.limits request text) (parsed : Message.parse text = .error refusal) :
    service.post now newId request = service.reply (.json 400 (.failure refusal.failure)) := by
  rw [post_text service now newId text request posted, postMessage, parsed]

theorem post_opening (now : Nat) (newId text : String) (request : Request) (message : Message)
    (posted : Posts service.limits request text) (parsed : Message.parse text = .ok message)
    (opens : opensSession message = true) :
    service.post now newId request = service.openSession now newId message := by
  rw [post_text service now newId text request posted, postMessage, parsed]
  exact if_pos opens

theorem post_unnamed (now : Nat) (newId text : String) (request : Request) (message : Message)
    (posted : Posts service.limits request text) (parsed : Message.parse text = .ok message)
    (other : opensSession message = false) (unnamed : ∀ id, ¬ request.Names id) :
    service.post now newId request = service.reply (missingSession message.id?) := by
  rw [post_text service now newId text request posted, postMessage, parsed]
  simp [other, request.session_none_iff.mpr unnamed]

theorem post_named (now : Nat) (newId text id : String) (request : Request) (message : Message)
    (posted : Posts service.limits request text) (parsed : Message.parse text = .ok message)
    (other : opensSession message = false) (named : request.Names id) :
    service.post now newId request = service.continueSession now id message := by
  rw [post_text service now newId text request posted, postMessage, parsed]
  simp [other, (request.session_iff id).mpr named]

theorem following_limits (past : List Arrival) : (service.following past).limits = service.limits := by
  induction past generalizing service with
  | nil => rfl
  | cons arrival past ih => exact (ih _).trans (receive_keeps service arrival).2

theorem handle_replies (session : Session) (text : String) (message : Message)
    (parsed : Message.parse text = .ok message) :
    (∀ method, message = .notification method → (service.server.handle session message).reply = none) ∧
      ∀ request, message = .request request →
        ∃ reply, (service.server.handle session message).reply = some reply := by
  have replied := Server.handle_line_replied service.server session text
  rw [Server.handleLine, parsed] at replied
  dsimp only at replied
  generalize (service.server.handle session message).reply = reply? at replied ⊢
  cases replied with
  | silence method notified =>
      cases parsed.symm.trans notified
      exact ⟨fun _ _ => rfl, fun _ same => nomatch same⟩
  | reply reply calls _ =>
      refine ⟨fun method same => ?_, fun _ _ => ⟨reply, rfl⟩⟩
      simp [callsForReply, parsed, same] at calls

theorem handshake_initialises (text : String) (message : Message) (reply : Reply)
    (parsed : Message.parse text = .ok message) (opens : opensSession message = true)
    (replied : (service.server.handle .awaiting message).reply = some reply)
    (succeeded : reply.isFailure = false) :
    ∃ version, (service.server.handle .awaiting message).session = .initialising version := by
  have turn := Server.handle_line_turn service.server .awaiting text
  rw [Server.handleLine, parsed] at turn
  dsimp only at turn
  generalize service.server.handle .awaiting message = answer at turn replied ⊢
  cases turn with
  | opened => exact ⟨_, rfl⟩
  | refused | failed =>
      cases replied
      cases succeeded
  | confirmed | ignored => cases replied
  | served request result log parsed' other =>
      cases parsed.symm.trans parsed'
      exact absurd (beq_iff_eq.mp opens) other

theorem open_session_told (now : Nat) (newId text : String) (message : Message)
    (sound : service.store.Sound) (parsed : Message.parse text = .ok message)
    (opens : opensSession message = true) :
    ∃ reply, (service.server.handle .awaiting message).reply = some reply ∧
      (service.openSession now newId message).response.told =
        ⟨200, reply.json, if reply.isFailure then [] else [newId]⟩ ∧
      (reply.isFailure = true → (service.openSession now newId message).service = service) ∧
      (reply.isFailure = false → newId ∉ service.store.ids →
        (service.openSession now newId message).service.server = service.server ∧
        service.store.Opens (service.openSession now newId message).service.store newId now) := by
  have initialises := handshake_initialises service text message
  cases message with
  | notification method => cases opens
  | request request =>
      obtain ⟨reply, replied⟩ := (handle_replies service .awaiting text _ parsed).2 request rfl
      refine ⟨reply, replied, ?_⟩
      unfold openSession
      dsimp only
      rw [replied]
      cases reply with
      | failure failure => exact ⟨rfl, fun _ => rfl, nofun⟩
      | success id result =>
          obtain ⟨version, session⟩ := initialises _ parsed opens replied rfl
          rw [session]
          exact ⟨rfl, nofun, fun _ fresh => ⟨rfl, Store.insert_opens _ sound newId version now fresh⟩⟩

theorem continue_session_told (now : Nat) (id text : String) (message : Message) (slot : Slot)
    (parsed : Message.parse text = .ok message) (answers : service.store.Answers id now slot) :
    let answer := service.server.handle slot.session message
    (∀ method, message = .notification method →
      (service.continueSession now id message).response.told = ⟨202, "", []⟩) ∧
    (∀ request, message = .request request → ∃ reply, answer.reply = some reply ∧
      (service.continueSession now id message).response.told = ⟨200, reply.json, []⟩) ∧
    (service.continueSession now id message).service = { service with store := { service.store with
      slots := service.store.slots.map fun other =>
        if other.id = id then ⟨id, answer.session, now⟩ else other } } := by
  intro answer
  obtain ⟨hit, slots⟩ := Store.touch_update service.store id now slot answer.session answers
  have limits := Store.touch_limits service.store id now
  obtain ⟨silent, replies⟩ := handle_replies service slot.session text message parsed
  unfold continueSession
  generalize service.store.touch id now = touched at hit slots limits ⊢
  obtain ⟨found, store⟩ := touched
  subst hit
  have updated : store.update id answer.session = ⟨service.store.slots.map fun other =>
      if other.id = id then ⟨id, answer.session, now⟩ else other, service.store.limits⟩ := by
    rw [← slots, ← limits]
    rfl
  dsimp only
  rw [updated]
  cases message with
  | notification method =>
      rw [silent method rfl]
      exact ⟨fun _ _ => rfl, nofun, rfl⟩
  | request request =>
      obtain ⟨reply, replied⟩ := replies request rfl
      rw [replied]
      exact ⟨nofun, fun _ _ => ⟨reply, rfl, rfl⟩, rfl⟩

section
variable (isPost : IsPost arrival.request)
include isPost

theorem receive_post :
    (service.receive arrival).response.told =
      (service.post arrival.now arrival.newId arrival.request).response.told ∧
    (service.receive arrival).service = (service.post arrival.now arrival.newId arrival.request).service := by
  have direct : arrival.request.method ≠ "OPTIONS" := by rw [isPost.method]; decide
  have answered : service.answer arrival.now arrival.newId arrival.request =
      service.post arrival.now arrival.newId arrival.request := by
    simp only [answer, isPost.route, isPost.method]
  unfold receive respond
  rw [if_neg direct, answered]
  simp [Response.told, Response.sessions, anyOrigin, Response.withHeader, sessionHeader]

theorem post_rules (sound : service.store.Sound) : PostRules service arrival := by
  obtain ⟨told, next⟩ := receive_post service arrival isPost
  refine ⟨?_, ?_, ?_, ?_, ?_, ?_, ?_⟩
  all_goals rw [told, next]
  · intro large
    rw [post, if_pos large]
    exact ⟨rfl, rfl⟩
  · intro fault small garbled
    rw [post, if_neg (Nat.not_lt.mpr small), garbled]
    exact ⟨rfl, rfl⟩
  · intro text refusal posted parsed
    rw [post_refused service _ _ text _ refusal posted parsed]
    exact ⟨rfl, rfl⟩
  · intro text message posted parsed opens
    rw [post_opening service _ _ text _ message posted parsed opens]
    exact open_session_told service _ _ text message sound parsed opens
  · intro text message posted parsed other unnamed
    rw [post_unnamed service _ _ text _ message posted parsed other unnamed]
    exact ⟨rfl, rfl⟩
  · intro text message id posted parsed other named lost
    rw [post_named service _ _ text id _ message posted parsed other named, continueSession,
      Store.touch_missed _ id _ lost]
    exact ⟨rfl, rfl⟩
  · intro text message id slot posted parsed other named answers
    rw [post_named service _ _ text id _ message posted parsed other named]
    exact continue_session_told service _ id text message slot parsed answers

end

end Service
end MarkdownServer.Http
