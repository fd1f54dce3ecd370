import MarkdownServer.Proofs.Http.History
import MarkdownServer.Proofs.Http.Refinement
/- Sweeping the store. To drop the idle sessions first and then do something comes to the same store
   as the other way round. So a sweep shows nowhere but in the removal of a session that is idle and
   still there: without the sweep it is found, after it, it is not. -/
set_option autoImplicit false

namespace MarkdownServer.Http

open Protocol (Message)

namespace Store

variable (store : Store) {now later : Nat}

theorem idle_later (limits : Limits) (slot : Slot) (ordered : now ≤ later)
    (idle : isIdle limits now slot = true) : isIdle limits later slot = true := by
  unfold isIdle at idle ⊢
  rw [decide_eq_true_eq] at idle ⊢
  omega

theorem fresh_active (limits : Limits) (id : String) (session : Session) (ordered : now ≤ later) :
    isIdle limits now ⟨id, session, later⟩ = false := by
  unfold isIdle
  rw [decide_eq_false_iff_not]
  change ¬ limits.idleTimeout < now - later
  omega

theorem expire_expire (ordered : now ≤ later) : (store.expire now).expire later = store.expire later := by
  unfold expire
  dsimp only
  rw [List.filter_filter]
  congr 2
  funext slot
  cases idle : isIdle store.limits now slot with
  | false => simp
  | true => simp [idle_later store.limits slot ordered idle]

theorem expire_comm : (store.expire now).expire later = (store.expire later).expire now := by
  unfold expire
  dsimp only
  rw [List.filter_filter, List.filter_filter]
  congr 2
  funext slot
  exact Bool.and_comm _ _

theorem expire_remove (id : String) :
    ((store.expire now).remove id).2 = (store.remove id).2.expire now := by
  unfold remove expire without
  dsimp only
  rw [List.filter_filter, List.filter_filter]
  congr 2
  funext slot
  exact Bool.and_comm _ _

theorem expire_modify (id : String) (change : Slot → Slot)
    (kept : ∀ slot ∈ store.slots, slot.id = id →
      isIdle store.limits now (change slot) = isIdle store.limits now slot) :
    (store.expire now).modify id change = (store.modify id change).expire now := by
  unfold modify expire
  dsimp only
  rw [List.filter_map]
  congr 2
  refine List.filter_congr fun slot member => ?_
  dsimp only [Function.comp]
  split
  · rename_i named
    rw [kept slot member (beq_iff_eq.mp named)]
  · rfl

theorem expire_active (active : ∀ slot ∈ store.slots, isIdle store.limits now slot = false) :
    store.expire now = store := by
  have kept : store.slots.filter (fun slot => !isIdle store.limits now slot) = store.slots :=
    List.filter_eq_self.mpr fun slot member => by rw [active slot member, Bool.not_false]
  rw [expire, kept]

theorem expire_insert (id : String) (session : Session) (ordered : now ≤ later) :
    (store.expire now).insert id session later = (store.insert id session later).expire now := by
  have active : ∀ slot ∈ (store.insert id session later).slots, isIdle store.limits now slot = false := by
    intro slot member
    obtain old | new := List.mem_append.mp member
    · have kept := (drop_repeat_sublist _ _).mem (without_subset id _ slot old)
      have awake := (List.mem_filter.mp kept).2
      cases idle : isIdle store.limits now slot with
      | false => rfl
      | true => simp [idle_later store.limits slot ordered idle] at awake
    · rw [List.mem_singleton.mp new]
      exact fresh_active store.limits id session ordered
  rw [expire_active _ active]
  unfold insert
  rw [expire_expire store ordered]

theorem remove_absent (id : String) (absent : store.find? id = none) : store.remove id = (false, store) := by
  unfold remove
  rw [absent, without_gone _ _ ((find_none _ _).mp absent)]
  rfl

theorem expire_touch (id : String) (single : store.ids.Nodup) (ordered : now ≤ later) :
    (store.expire now).touch id later =
      ((store.touch id later).1, (store.touch id later).2.expire now) := by
  have swept := find_expire store now id single
  unfold touch
  cases found : store.find? id with
  | none =>
      rw [found] at swept
      rw [swept]
      rfl
  | some slot =>
      obtain ⟨member, named⟩ := (find_some store id slot single).mp found
      rw [found] at swept
      cases idle : isIdle store.limits now slot with
      | true =>
          have absent : (store.expire now).find? id = none := by simpa [Option.filter, idle] using swept
          dsimp only
          rw [absent, if_pos (idle_later store.limits slot ordered idle), ← expire_remove store id]
          rw [remove_absent _ id absent]
      | false =>
          have present : (store.expire now).find? id = some slot := by
            simpa [Option.filter, idle] using swept
          dsimp only
          rw [present]
          change (if isIdle store.limits later slot = true then _ else _) = _
          cases lost : isIdle store.limits later slot with
          | true =>
              rw [if_pos rfl, if_pos rfl]
              exact congrArg (Prod.mk none) (expire_remove store id)
          | false =>
              rw [if_neg (by decide), if_neg (by decide)]
              refine congrArg (Prod.mk (some slot.session))
                (expire_modify store id _ fun other inside same => ?_)
              have only := List.inj_on_of_nodup_map single inside member (same.trans named.symm)
              rw [only, idle]
              exact fresh_active store.limits slot.id slot.session ordered

theorem expire_perform (act : Act) (single : store.ids.Nodup) (ordered : now ≤ act.now) :
    ((store.expire now).perform act).2 = (store.perform act).2.expire now := by
  obtain ⟨later, operation⟩ := act
  cases operation with
  | insert id session => exact expire_insert store id session ordered
  | touch id => exact congrArg Prod.snd (expire_touch store id single ordered)
  | update id session => exact expire_modify store id _ fun _ _ _ => rfl
  | remove id => exact expire_remove store id
  | expire => exact expire_comm store

theorem expire_after (history : List Act) (sound : store.Sound) (ordered : ∀ act ∈ history, now ≤ act.now) :
    (store.expire now).after history = (store.after history).expire now := by
  induction history generalizing store with
  | nil => rfl
  | cons act history ih =>
      obtain ⟨first, rest⟩ := List.forall_mem_cons.mp ordered
      rw [after_cons, expire_perform store act sound.single first]
      exact ih _ (perform_sound store act sound) rest

def RemovesIdle (now : Nat) (act : Act) : Prop :=
  ∃ id slot, act.operation = .remove id ∧ store.find? id = some slot ∧ isIdle store.limits now slot = true

theorem expire_removes_idle (act : Act) (single : store.ids.Nodup) (removes : store.RemovesIdle now act) :
    (store.perform act).1 = .presence true ∧ ((store.expire now).perform act).1 = .presence false := by
  obtain ⟨later, operation⟩ := act
  obtain ⟨id, slot, rfl, found, idle⟩ := removes
  have swept := find_expire store now id single
  rw [found] at swept
  refine ⟨congrArg Finding.presence ?_, congrArg Finding.presence ?_⟩
  · simp [remove, found]
  · simp [remove, swept, Option.filter, idle]

theorem expire_finding (act : Act) (single : store.ids.Nodup) (ordered : now ≤ act.now)
    (spares : ¬ store.RemovesIdle now act) :
    ((store.expire now).perform act).1 = (store.perform act).1 := by
  obtain ⟨later, operation⟩ := act
  cases operation with
  | insert id session => rfl
  | touch id =>
      refine congrArg Finding.session ?_
      rw [expire_touch store id single ordered]
  | update id session => rfl
  | remove id =>
      refine congrArg Finding.presence ?_
      have swept := find_expire store now id single
      cases found : store.find? id with
      | none => simp [remove, swept, found]
      | some slot =>
          have active : isIdle store.limits now slot = false := by
            by_contra idle
            exact spares ⟨id, slot, rfl, found, by simpa using idle⟩
          simp [remove, swept, found, Option.filter, active]
  | expire => rfl

end Store

namespace Service

variable (service : Service) {now : Nat}

def sweep (now : Nat) : Service :=
  { service with store := service.store.expire now }

-- The same but for a sweep, and with the same response.
structure Alike (now : Nat) (handled swept : Handled) : Prop where
  response : swept.response = handled.response
  service : swept.service = handled.service.sweep now

def EndsIdle (now : Nat) (request : Request) : Prop :=
  Route.ofPath request.path = .messages ∧ request.method = "DELETE" ∧
    ∃ id slot, request.Names id ∧ service.store.find? id = some slot ∧
      Store.isIdle service.limits now slot = true

theorem alike_reply (now : Nat) (response : Response) :
    Alike now (service.reply response) ((service.sweep now).reply response) :=
  ⟨rfl, rfl⟩

theorem alike_open_session (later : Nat) (newId : String) (message : Message) (ordered : now ≤ later) :
    Alike now (service.openSession later newId message)
      ((service.sweep now).openSession later newId message) := by
  have inserted (session : Session) := Store.expire_insert service.store newId session ordered
  unfold openSession sweep
  dsimp only
  cases (service.server.handle .awaiting message).reply with
  | none => exact ⟨rfl, rfl⟩
  | some reply =>
      cases reply with
      | failure failure => exact ⟨rfl, rfl⟩
      | success id result => exact ⟨rfl, congrArg (Service.mk service.server) (inserted _)⟩

theorem alike_continue_session (later : Nat) (id : String) (message : Message)
    (single : service.store.ids.Nodup) (ordered : now ≤ later) :
    Alike now (service.continueSession later id message)
      ((service.sweep now).continueSession later id message) := by
  unfold continueSession sweep
  dsimp only
  rw [Store.expire_touch _ id single ordered]
  generalize service.store.touch id later = touched
  obtain ⟨found, store⟩ := touched
  cases found with
  | none => exact ⟨rfl, rfl⟩
  | some session =>
      have updated (session : Session) : (store.expire now).update id session =
          (store.update id session).expire now := Store.expire_modify store id _ fun _ _ _ => rfl
      dsimp only
      cases (service.server.handle session message).reply with
      | none => exact ⟨rfl, congrArg (Service.mk service.server) (updated _)⟩
      | some reply => exact ⟨rfl, congrArg (Service.mk service.server) (updated _)⟩

theorem alike_post (later : Nat) (newId : String) (request : Request)
    (single : service.store.ids.Nodup) (ordered : now ≤ later) :
    Alike now (service.post later newId request) ((service.sweep now).post later newId request) := by
  have limits : (service.sweep now).limits = service.limits := rfl
  unfold post
  rw [limits]
  split
  · exact alike_reply service now _
  split
  · exact alike_reply service now _
  · unfold postMessage
    split
    · exact alike_reply service now _
    split
    · exact alike_open_session service later newId _ ordered
    split
    · exact alike_reply service now _
    · exact alike_continue_session service later _ _ single ordered

theorem alike_delete (request : Request) (single : service.store.ids.Nodup)
    (spares : ∀ id slot, request.Names id → service.store.find? id = some slot →
      Store.isIdle service.limits now slot = false) :
    Alike now (service.delete request) ((service.sweep now).delete request) := by
  unfold delete
  split
  · exact alike_reply service now _
  · rename_i id named
    have swept := Store.find_expire service.store now id single
    have removed : ((service.store.expire now).remove id).2 = (service.store.remove id).2.expire now :=
      Store.expire_remove service.store id
    unfold sweep
    dsimp only
    cases found : service.store.find? id with
    | none =>
        rw [found] at swept
        simp only [Store.remove, found, swept, Option.filter_none, Option.isSome_none]
        exact ⟨rfl, rfl⟩
    | some slot =>
        have active : Store.isIdle service.store.limits now slot = false :=
          spares id slot ((request.session_iff id).mp named) found
        rw [found] at swept
        have kept : (service.store.expire now).find? id = some slot := by
          simpa [Option.filter, active] using swept
        simp only [Store.remove, found, kept, Option.isSome_some] at removed ⊢
        exact ⟨rfl, congrArg (Service.mk service.server) removed⟩

theorem alike_answer (later : Nat) (newId : String) (request : Request)
    (single : service.store.ids.Nodup) (ordered : now ≤ later) (spares : ¬ service.EndsIdle now request) :
    Alike now (service.answer later newId request) ((service.sweep now).answer later newId request) := by
  unfold answer
  split
  · exact alike_post service later newId request single ordered
  · rename_i route method
    refine alike_delete service request single fun id slot named found => ?_
    by_contra idle
    exact spares ⟨route, method, id, slot, named, found, by simpa using idle⟩
  · exact alike_reply service now _
  · exact alike_reply service now _
  · split
    · exact alike_reply service now _
    · exact alike_reply service now _

theorem alike_receive (arrival : Arrival) (single : service.store.ids.Nodup)
    (ordered : now ≤ arrival.now) (spares : ¬ service.EndsIdle now arrival.request) :
    Alike now (service.receive arrival) ((service.sweep now).receive arrival) := by
  unfold receive respond
  split
  · exact alike_reply service now _
  · obtain ⟨response, next⟩ := alike_answer service arrival.now arrival.newId arrival.request single
      ordered spares
    refine ⟨?_, next⟩
    dsimp only
    rw [response]

theorem ends_idle_receive (arrival : Arrival) (single : service.store.ids.Nodup)
    (ends : service.EndsIdle now arrival.request) :
    (service.receive arrival).response.status = 204 ∧
      ((service.sweep now).receive arrival).response.status = 404 ∧
      ((service.sweep now).receive arrival).service = (service.receive arrival).service.sweep now := by
  obtain ⟨route, method, id, slot, names, found, idle⟩ := ends
  have named := (arrival.request.session_iff id).mpr names
  have direct : arrival.request.method ≠ "OPTIONS" := by rw [method]; decide
  have answered (service : Service) :
      service.answer arrival.now arrival.newId arrival.request = service.delete arrival.request := by
    simp only [answer, route, method]
  have absent : (service.store.expire now).find? id = none := by
    have idle' : Store.isIdle service.store.limits now slot = true := idle
    simp [Store.find_expire service.store now id single, found, Option.filter, idle']
  have removed : ((service.store.expire now).remove id).2 = (service.store.remove id).2.expire now :=
    Store.expire_remove service.store id
  rw [Store.remove_absent _ id absent] at removed
  have here : service.delete arrival.request = ⟨.empty 204, ⟨service.server, (service.store.remove id).2⟩,
      [.info "Session terminated" [("session", .quoted id)]]⟩ := by
    simp [delete, named, Store.remove, found]
  have gone : (service.sweep now).delete arrival.request = (service.sweep now).reply (.empty 404) := by
    simp [delete, named, Store.remove, sweep, absent]
  unfold receive respond
  rw [if_neg direct, if_neg direct, answered, answered, here, gone]
  exact ⟨rfl, rfl, congrArg (Service.mk service.server) removed⟩

theorem receive_sound (arrival : Arrival) (sound : service.store.Sound) :
    (service.receive arrival).service.store.Sound := by
  obtain ⟨handled, outcome, same, _⟩ := receive_outcome service arrival
  rw [same]
  cases outcome with
  | opened => exact Store.insert_sound _ _ _ _ sound
  | lost => exact Store.touch_sound _ _ _ sound
  | continued => exact Store.modify_sound _ _ _ (fun _ => rfl) (Store.touch_sound _ _ _ sound)
  | deleted => exact Store.filter_sound _ _ sound
  | _ => exact sound

def following (arrivals : List Arrival) : Service :=
  arrivals.foldl (fun service arrival => (service.receive arrival).service) service

theorem following_sound (arrivals : List Arrival) (sound : service.store.Sound) :
    (service.following arrivals).store.Sound := by
  induction arrivals generalizing service with
  | nil => exact sound
  | cons arrival arrivals ih => exact ih _ (receive_sound service arrival sound)

theorem sweep_following (arrivals : List Arrival) (sound : service.store.Sound)
    (ordered : ∀ arrival ∈ arrivals, now ≤ arrival.now) :
    (service.sweep now).following arrivals = (service.following arrivals).sweep now := by
  induction arrivals generalizing service with
  | nil => rfl
  | cons arrival arrivals ih =>
      obtain ⟨first, rest⟩ := List.forall_mem_cons.mp ordered
      have next : ((service.sweep now).receive arrival).service =
          (service.receive arrival).service.sweep now := by
        by_cases ends : service.EndsIdle now arrival.request
        · exact (ends_idle_receive service arrival sound.single ends).2.2
        · exact (alike_receive service arrival sound.single first ends).service
      rw [following, List.foldl_cons, next]
      exact ih _ (receive_sound service arrival sound) rest

theorem idle_post (arrival : Arrival) (text id : String) (message : Message)
    (posted : Posts service.limits arrival.request text) (parsed : Message.parse text = .ok message)
    (other : opensSession message = false) (named : arrival.request.Names id)
    (idle : ∀ slot, service.store.find? id = some slot →
      Store.isIdle service.limits arrival.now slot = true) :
    (service.receive arrival).response.status = 404 := by
  obtain ⟨handled, outcome, _, decorates⟩ := receive_outcome service arrival
  rw [decorates.status]
  have same (again : String) (message' : Message) (posted' : Posts service.limits arrival.request again)
      (parsed' : Message.parse again = .ok message') : message' = message := by
    cases posts_unique _ _ _ _ posted' posted
    cases parsed'.symm.trans parsed
    rfl
  cases outcome with
  | aside _ _ unread => exact absurd posted (unread text)
  | refused again refusal posted' parsed' =>
      cases posts_unique _ _ _ _ posted' posted
      cases parsed'.symm.trans parsed
  | opened again message' _ posted' parsed' opens =>
      rw [same again message' posted' parsed', other] at opens
      cases opens
  | unopened again message' _ posted' parsed' opens =>
      rw [same again message' posted' parsed', other] at opens
      cases opens
  | unnamed _ _ _ _ _ absent => exact absurd named (absent id)
  | lost => rfl
  | continued _ _ id' session _ _ _ named' hit =>
      cases named.unique _ _ _ named'
      obtain ⟨slot, found, active, _⟩ := (Store.touch_some _ _ _ _).mp hit
      exact absurd (idle slot found) (Bool.eq_false_iff.mp active)
  | deleted id' method =>
      rw [posted.method] at method
      exact absurd method (by decide)

end Service

structure SweepShown (store : Store) (now : Nat) : Prop where
  operations : ∀ history act, (∀ each ∈ history ++ [act], now ≤ each.now) →
    let plain := store.after history
    let swept := (store.expire now).after history
    (plain.RemovesIdle now act →
      (plain.perform act).1 = .presence true ∧ (swept.perform act).1 = .presence false) ∧
    (¬ plain.RemovesIdle now act → (swept.perform act).1 = (plain.perform act).1)
  requests : ∀ server arrivals arrival, (∀ each ∈ arrivals ++ [arrival], now ≤ each.now) →
    let plain := Service.following ⟨server, store⟩ arrivals
    let swept := Service.following ⟨server, store.expire now⟩ arrivals
    (plain.EndsIdle now arrival.request →
      (plain.receive arrival).response.status = 204 ∧ (swept.receive arrival).response.status = 404) ∧
    (¬ plain.EndsIdle now arrival.request →
      (swept.receive arrival).response = (plain.receive arrival).response)
  messages : ∀ server arrival text id message, Posts store.limits arrival.request text →
    Message.parse text = .ok message → Service.opensSession message = false →
    arrival.request.Names id →
    (∀ slot, store.find? id = some slot → Store.isIdle store.limits arrival.now slot = true) →
    (Service.receive ⟨server, store⟩ arrival).response.status = 404

/- For every store that some history leads to, a sweep of the idle sessions is noticed by those alone
   who end a session that is idle and that nothing has swept. -/
theorem sweep_shown_by_removal (limits : Limits) (past : List Act) (now : Nat) :
    SweepShown ((Store.empty limits).after past) now := by
  have sound := Store.after_sound _ past (Store.empty_sound limits)
  generalize (Store.empty limits).after past = store at sound
  refine ⟨fun history act ordered => ?_, fun server arrivals arrival ordered => ?_, ?_⟩
  · obtain ⟨before, last⟩ := List.forall_mem_append.mp ordered
    have single := (Store.after_sound store history sound).single
    dsimp only
    rw [Store.expire_after store history sound before]
    exact ⟨Store.expire_removes_idle _ act single,
      Store.expire_finding _ act single (last act List.mem_cons_self)⟩
  · obtain ⟨before, last⟩ := List.forall_mem_append.mp ordered
    have single := (Service.following_sound ⟨server, store⟩ arrivals sound).single
    have swept := Service.sweep_following ⟨server, store⟩ arrivals sound before
    unfold Service.sweep at swept
    dsimp only at swept ⊢
    rw [swept]
    refine ⟨fun ends => ?_, fun spares => ?_⟩
    · obtain ⟨here, gone, _⟩ := Service.ends_idle_receive _ arrival single ends
      exact ⟨here, gone⟩
    · exact (Service.alike_receive _ arrival single (last arrival List.mem_cons_self) spares).response
  · intro server arrival text id message posted parsed other named idle
    exact Service.idle_post ⟨server, store⟩ arrival text id message posted parsed other named idle

def brief : Limits := Limits.standard.setIdleTimeout (seconds 1)

def ending (id : String) : Request := ⟨"DELETE", "/mcp", [(sessionHeader, id)], []⟩

theorem idle_session_removed :
    let store := (Store.empty brief).insert "a" .awaiting 0
    (store.remove "a").1 = true ∧ ((store.expire (seconds 2)).remove "a").1 = false ∧
      (Service.receive ⟨⟨[], by decide⟩, store⟩ ⟨seconds 2, "b", ending "a"⟩).response.status = 204 ∧
      (Service.receive ⟨⟨[], by decide⟩, store.expire (seconds 2)⟩
        ⟨seconds 2, "b", ending "a"⟩).response.status = 404 := by
  decide +kernel

end MarkdownServer.Http
