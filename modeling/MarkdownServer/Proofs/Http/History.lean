import Mathlib.Data.List.Nodup
import MarkdownServer.Proofs.Http.Store
/- Histories of the store: what is done to it, in which order and when. `perform_find` says once what
   becomes of the slot of an id whatever is done, and `perform_sound` what holds of all slots. -/
set_option autoImplicit false

namespace MarkdownServer.Http

inductive Operation where
  | insert (id : String) (session : Session)
  | touch (id : String)
  | update (id : String) (session : Session)
  | remove (id : String)
  | expire

structure Act where
  now : Nat
  operation : Operation

inductive Finding where
  | nothing
  | session (found : Option Session)
  | presence (present : Bool)

namespace Act

def inserts (act : Act) (id : String) : Bool :=
  match act.operation with
  | .insert other _ => other == id
  | _ => false

def removes (act : Act) (id : String) : Bool :=
  match act.operation with
  | .remove other => other == id
  | _ => false

end Act

namespace Store

def perform (store : Store) (act : Act) : Finding × Store :=
  match act.operation with
  | .insert id session => (.nothing, store.insert id session act.now)
  | .touch id => (.session (store.touch id act.now).1, (store.touch id act.now).2)
  | .update id session => (.nothing, store.update id session)
  | .remove id => (.presence (store.remove id).1, (store.remove id).2)
  | .expire => (.nothing, store.expire act.now)

def after (store : Store) (history : List Act) : Store :=
  history.foldl (fun store act => (store.perform act).2) store

theorem after_append (store : Store) (past future : List Act) :
    store.after (past ++ future) = (store.after past).after future :=
  List.foldl_append

theorem after_cons (store : Store) (act : Act) (history : List Act) :
    store.after (act :: history) = (store.perform act).2.after history := rfl

structure Sound (store : Store) : Prop where
  single : store.ids.Nodup
  few : store.size ≤ store.limits.sessions

theorem oldest_none (slots : List Slot) (none : oldest? slots = none) : slots = [] := by
  cases slots with
  | nil => rfl
  | cons slot rest =>
      rw [oldest?] at none
      split at none
      · cases none
      · split at none <;> cases none

theorem oldest_least (slots : List Slot) (oldest : Slot) (found : oldest? slots = some oldest) :
    oldest ∈ slots ∧ ∀ slot ∈ slots, oldest.lastSeen ≤ slot.lastSeen := by
  induction slots generalizing oldest with
  | nil => cases found
  | cons slot rest ih =>
      rw [oldest?] at found
      split at found
      · rename_i none
        cases found
        cases oldest_none rest none
        exact ⟨List.mem_cons_self, List.forall_mem_singleton.mpr (Nat.le_refl _)⟩
      · rename_i other some
        obtain ⟨inside, least⟩ := ih other some
        split at found
        · rename_i older
          cases found
          exact ⟨List.mem_cons_of_mem _ inside, List.forall_mem_cons.mpr ⟨Nat.le_of_lt older, least⟩⟩
        · rename_i newer
          cases found
          refine ⟨List.mem_cons_self, List.forall_mem_cons.mpr ⟨Nat.le_refl _, fun slot member => ?_⟩⟩
          exact Nat.le_trans (Nat.not_lt.mp newer) (least slot member)

theorem filter_ids (keeps : Slot → Bool) (slots : List Slot) (single : (slots.map Slot.id).Nodup) :
    ((slots.filter keeps).map Slot.id).Nodup :=
  single.sublist (List.filter_sublist.map Slot.id)

theorem find_some (store : Store) (id : String) (slot : Slot) (single : store.ids.Nodup) :
    store.find? id = some slot ↔ slot ∈ store.slots ∧ slot.id = id := by
  constructor
  · intro found
    exact ⟨List.mem_of_find?_eq_some found, by simpa using List.find?_some found⟩
  · rintro ⟨member, named⟩
    cases found : store.find? id with
    | none =>
        have absent := List.find?_eq_none.mp found slot member
        exact absurd (beq_iff_eq.mpr named) absent
    | some other =>
        have named' : other.id = id := by simpa using List.find?_some found
        have same := List.inj_on_of_nodup_map single (List.mem_of_find?_eq_some found) member
          (named'.trans named.symm)
        rw [same]

theorem find_none (store : Store) (id : String) : store.find? id = none ↔ id ∉ store.ids := by
  simp [find?, ids]

theorem find_filter (store : Store) (keeps : Slot → Bool) (id : String) (single : store.ids.Nodup) :
    find? { store with slots := store.slots.filter keeps } id = (store.find? id).filter keeps := by
  have kept : (ids { store with slots := store.slots.filter keeps }).Nodup := filter_ids keeps _ single
  ext slot
  rw [find_some _ _ _ kept, List.mem_filter, Option.filter_eq_some_iff, find_some _ _ _ single]
  exact and_right_comm

theorem find_without (store : Store) (id other : String) (single : store.ids.Nodup) :
    find? { store with slots := without other store.slots } id =
      if id = other then none else store.find? id := by
  refine (find_filter store (fun slot => slot.id != other) id single).trans ?_
  cases found : store.find? id with
  | none => simp
  | some slot =>
      have named := ((find_some store id slot single).mp found).2
      by_cases same : id = other <;> simp [Option.filter, named, same]

theorem find_expire (store : Store) (now : Nat) (id : String) (single : store.ids.Nodup) :
    (store.expire now).find? id = (store.find? id).filter fun slot => !isIdle store.limits now slot :=
  find_filter store _ id single

theorem modify_ids (store : Store) (id : String) (change : Slot → Slot)
    (kept : ∀ slot, (change slot).id = slot.id) : (store.modify id change).ids = store.ids := by
  unfold ids modify
  rw [List.map_map]
  refine List.map_congr_left fun slot _ => ?_
  dsimp only [Function.comp]
  split
  · exact kept slot
  · rfl

theorem find_modify (store : Store) (id other : String) (change : Slot → Slot)
    (kept : ∀ slot, (change slot).id = slot.id) :
    (store.modify other change).find? id =
      (store.find? id).map fun slot => if slot.id == other then change slot else slot := by
  unfold find? modify
  rw [List.find?_map]
  congr 2
  funext slot
  dsimp only [Function.comp]
  split
  · rw [kept]
  · rfl

theorem touch_some (store : Store) (id : String) (now : Nat) (session : Session) :
    (store.touch id now).1 = some session ↔
      ∃ slot, store.find? id = some slot ∧ isIdle store.limits now slot = false ∧ slot.session = session := by
  unfold touch
  cases found : store.find? id with
  | none => simp
  | some slot => cases idle : isIdle store.limits now slot <;> simp [idle]

def evicts (store : Store) (now : Nat) (id : String) : Bool :=
  decide (id ∈ (store.expire now).ids) && decide (id ∉ (store.expire now).makeRoom.ids)

theorem make_room_single (store : Store) (single : store.ids.Nodup) : store.makeRoom.ids.Nodup :=
  single.sublist ((drop_repeat_sublist _ _).map Slot.id)

theorem find_make_room (store : Store) (id : String) (single : store.ids.Nodup) :
    store.makeRoom.find? id = (store.find? id).filter fun _ => decide (id ∈ store.makeRoom.ids) := by
  ext slot
  rw [find_some _ _ _ (make_room_single store single), Option.filter_eq_some_iff,
    find_some _ _ _ single, decide_eq_true_eq]
  constructor
  · rintro ⟨member, named⟩
    exact ⟨⟨(drop_repeat_sublist _ _).mem member, named⟩, List.mem_map.mpr ⟨slot, member, named⟩⟩
  · rintro ⟨⟨member, named⟩, present⟩
    obtain ⟨other, kept, named'⟩ := List.mem_map.mp present
    have same := List.inj_on_of_nodup_map single ((drop_repeat_sublist _ _).mem kept) member
      (named'.trans named.symm)
    exact ⟨same ▸ kept, named⟩

def fate (store : Store) (act : Act) (slot : Slot) : Option Slot :=
  match act.operation with
  | .insert _ _ =>
      if isIdle store.limits act.now slot || store.evicts act.now slot.id then none else some slot
  | .touch id =>
      if slot.id = id then
        if isIdle store.limits act.now slot then none else some { slot with lastSeen := act.now }
      else some slot
  | .update id session => if slot.id = id then some { slot with session } else some slot
  | .remove id => if slot.id = id then none else some slot
  | .expire => if isIdle store.limits act.now slot then none else some slot

theorem find_insert_other (store : Store) (id other : String) (session : Session) (now : Nat)
    (single : store.ids.Nodup) (different : other ≠ id) :
    (store.insert other session now).find? id = (store.find? id).bind fun slot =>
      if isIdle store.limits now slot || store.evicts now id then none else some slot := by
  have swept : (store.expire now).ids.Nodup := filter_ids _ store.slots single
  have added : (store.insert other session now).find? id = (store.expire now).makeRoom.find? id := by
    have kept := find_without (store.expire now).makeRoom id other (make_room_single _ swept)
    rw [if_neg (Ne.symm different)] at kept
    rw [← kept]
    unfold find? insert
    rw [List.find?_append]
    simp [different]
  rw [added, find_make_room _ _ swept, find_expire store now id single]
  cases found : store.find? id with
  | none => rfl
  | some slot =>
      have present : isIdle store.limits now slot = false → id ∈ (store.expire now).ids := by
        obtain ⟨member, named⟩ := (find_some store id slot single).mp found
        intro active
        exact List.mem_map.mpr ⟨slot, List.mem_filter.mpr ⟨member, by simp [active]⟩, named⟩
      cases idle : isIdle store.limits now slot with
      | true => simp [Option.filter, idle]
      | false =>
          by_cases room : id ∈ (store.expire now).makeRoom.ids <;>
            simp [Option.filter, idle, evicts, present idle, room]

theorem find_touch (store : Store) (id other : String) (now : Nat) (single : store.ids.Nodup) :
    (store.touch other now).2.find? id = (store.find? id).bind fun slot =>
      if slot.id = other then
        if isIdle store.limits now slot then none else some { slot with lastSeen := now }
      else some slot := by
  unfold touch
  split
  · rename_i absent
    cases found : store.find? id with
    | none => simp
    | some slot =>
        have named := ((find_some store id slot single).mp found).2
        have different : slot.id ≠ other := by
          rintro rfl
          rw [named, found] at absent
          cases absent
        simp [different]
  rename_i slot present
  obtain ⟨_, named⟩ := (find_some store other slot single).mp present
  split
  · rename_i idle
    refine (find_without store id other single).trans ?_
    by_cases same : id = other
    · subst same
      simp [present, idle, named]
    · cases found : store.find? id with
      | none => simp
      | some slot' =>
          have named' := ((find_some store id slot' single).mp found).2
          simp [same, named']
  · rename_i active
    refine (find_modify store id other (fun slot => { slot with lastSeen := now }) fun _ => rfl).trans ?_
    cases found : store.find? id with
    | none => rfl
    | some slot' =>
        have named' := ((find_some store id slot' single).mp found).2
        by_cases same : id = other
        · subst same
          cases found.symm.trans present
          simp [named, active]
        · simp [named', same]

theorem find_update (store : Store) (id other : String) (session : Session) :
    (store.update other session).find? id = (store.find? id).bind fun slot =>
      if slot.id = other then some { slot with session } else some slot := by
  refine (find_modify store id other (fun slot => { slot with session }) fun _ => rfl).trans ?_
  cases store.find? id with
  | none => rfl
  | some slot => by_cases same : slot.id = other <;> simp [same]

theorem find_remove (store : Store) (id other : String) (single : store.ids.Nodup) :
    (store.remove other).2.find? id = (store.find? id).bind fun slot =>
      if slot.id = other then none else some slot := by
  refine (find_without store id other single).trans ?_
  cases found : store.find? id with
  | none => simp
  | some slot =>
      have named := ((find_some store id slot single).mp found).2
      by_cases same : id = other <;> simp [named, same]

theorem perform_find (store : Store) (act : Act) (id : String) (single : store.ids.Nodup)
    (other : act.inserts id = false) :
    (store.perform act).2.find? id = (store.find? id).bind (store.fate act) := by
  obtain ⟨now, operation⟩ := act
  cases operation with
  | insert name session =>
      have different : name ≠ id := by simpa [Act.inserts] using other
      refine (find_insert_other store id name session now single different).trans ?_
      cases found : store.find? id with
      | none => rfl
      | some slot =>
          have named := ((find_some store id slot single).mp found).2
          simp [fate, named]
  | touch name => exact find_touch store id name now single
  | update name session => exact find_update store id name session
  | remove name => exact find_remove store id name single
  | expire =>
      refine (find_expire store now id single).trans ?_
      cases store.find? id with
      | none => rfl
      | some slot => cases idle : isIdle store.limits now slot <;> simp [fate, idle, Option.filter]

theorem find_insert (store : Store) (id : String) (session : Session) (now : Nat) :
    (store.insert id session now).find? id = some ⟨id, session, now⟩ := by
  have absent : (without id (store.expire now).makeRoom.slots).find? (fun slot => slot.id == id) = none :=
    List.find?_eq_none.mpr fun slot member same =>
      without_absent id _ slot member (beq_iff_eq.mp same)
  unfold find? insert
  rw [List.find?_append, absent]
  simp

theorem perform_limits (store : Store) (act : Act) : (store.perform act).2.limits = store.limits := by
  obtain ⟨now, operation⟩ := act
  cases operation with
  | touch id => exact touch_limits store id now
  | _ => rfl

theorem after_limits (store : Store) (history : List Act) : (store.after history).limits = store.limits := by
  induction history generalizing store with
  | nil => rfl
  | cons act history ih => exact (ih _).trans (perform_limits store act)

theorem drop_oldest_shorter (slots : List Slot) (some : slots ≠ []) :
    (dropOldest slots).length < slots.length := by
  unfold dropOldest
  split
  · rename_i none
    exact absurd (oldest_none slots none) some
  · rename_i oldest found
    refine List.length_filter_lt_length_iff_exists.mpr ⟨oldest, (oldest_least slots oldest found).1, ?_⟩
    simp

theorem without_ids (id : String) (slots : List Slot) : id ∉ (without id slots).map Slot.id := by
  intro member
  obtain ⟨slot, kept, named⟩ := List.mem_map.mp member
  exact without_absent id slots slot kept named

theorem without_gone (id : String) (slots : List Slot) (gone : id ∉ slots.map Slot.id) :
    without id slots = slots := by
  refine List.filter_eq_self.mpr fun slot member => bne_iff_ne.mpr ?_
  rintro rfl
  exact gone (List.mem_map_of_mem member)

theorem expire_size (store : Store) (now : Nat) : (store.expire now).size ≤ store.size :=
  List.length_filter_le _ _

-- At most one session is dropped for another, and only from a full store.
theorem make_room_slots (store : Store) (few : store.size ≤ store.limits.sessions) :
    store.makeRoom.slots =
      if store.size < store.limits.sessions then store.slots else dropOldest store.slots := by
  unfold makeRoom
  split
  · rename_i free
    have none : store.size + 1 - store.limits.sessions = 0 := by omega
    rw [none]
    rfl
  · have one : store.size + 1 - store.limits.sessions = 1 := by omega
    rw [one]
    rfl

theorem make_room_size (store : Store) (few : store.size ≤ store.limits.sessions) :
    store.makeRoom.size < store.limits.sessions := by
  have positive := store.limits.positive
  unfold size at few ⊢
  rw [make_room_slots store few]
  split
  · assumption
  · rename_i full
    unfold size at full
    have some : store.slots ≠ [] := by
      rintro empty
      rw [empty, List.length_nil] at full
      exact full positive
    have := drop_oldest_shorter store.slots some
    omega

theorem insert_sound (store : Store) (id : String) (session : Session) (now : Nat) (sound : store.Sound) :
    (store.insert id session now).Sound := by
  have swept : (store.expire now).ids.Nodup := filter_ids _ store.slots sound.single
  have room := make_room_single (store.expire now) swept
  refine ⟨?_, ?_⟩
  · have kept := filter_ids (fun slot => slot.id != id) _ room
    unfold ids insert
    rw [List.map_append]
    refine List.nodup_append.mpr ⟨kept, List.nodup_singleton _, ?_⟩
    rintro other old new named rfl
    rw [List.map_singleton, List.mem_singleton] at named
    subst named
    exact without_ids _ _ old
  · have few : (store.expire now).size ≤ store.limits.sessions :=
      Nat.le_trans (expire_size store now) sound.few
    have small := make_room_size (store.expire now) few
    have fewer := List.length_filter_le (fun slot : Slot => slot.id != id) (store.expire now).makeRoom.slots
    change (without id (store.expire now).makeRoom.slots ++ [_]).length ≤ store.limits.sessions
    rw [List.length_append, List.length_singleton]
    exact Nat.lt_of_le_of_lt fewer small

theorem filter_sound (store : Store) (keeps : Slot → Bool) (sound : store.Sound) :
    Sound { store with slots := store.slots.filter keeps } :=
  ⟨filter_ids keeps store.slots sound.single, Nat.le_trans (List.length_filter_le _ _) sound.few⟩

theorem modify_sound (store : Store) (id : String) (change : Slot → Slot)
    (kept : ∀ slot, (change slot).id = slot.id) (sound : store.Sound) :
    (store.modify id change).Sound := by
  refine ⟨?_, ?_⟩
  · rw [modify_ids store id change kept]
    exact sound.single
  · have same : (store.modify id change).size = store.size := List.length_map _
    rw [same]
    exact sound.few

theorem touch_sound (store : Store) (id : String) (now : Nat) (sound : store.Sound) :
    (store.touch id now).2.Sound := by
  unfold touch
  split
  · exact sound
  split
  · exact filter_sound store _ sound
  · exact modify_sound store id _ (fun _ => rfl) sound

theorem perform_sound (store : Store) (act : Act) (sound : store.Sound) : (store.perform act).2.Sound := by
  obtain ⟨now, operation⟩ := act
  cases operation with
  | insert id session => exact insert_sound store id session now sound
  | touch id => exact touch_sound store id now sound
  | update id session => exact modify_sound store id _ (fun _ => rfl) sound
  | remove id => exact filter_sound store _ sound
  | expire => exact filter_sound store _ sound

theorem empty_sound (limits : Limits) : (empty limits).Sound :=
  ⟨List.nodup_nil, Nat.zero_le _⟩

theorem after_sound (store : Store) (history : List Act) (sound : store.Sound) :
    (store.after history).Sound := by
  induction history generalizing store with
  | nil => exact sound
  | cons act history ih => exact ih _ (perform_sound store act sound)

end Store
end MarkdownServer.Http
