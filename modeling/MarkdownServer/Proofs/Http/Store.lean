import MarkdownServer.Http.Store
/- What the operations of the store do to the slots of one id. -/
set_option autoImplicit false

namespace MarkdownServer.Http.Store

def Agrees (store : Store) (id : String) (session : Session) : Prop :=
  ∀ slot ∈ store.slots, slot.id = id → slot.session = session

def Live (store : Store) (id : String) : Prop := (store.find? id).isSome = true

theorem agrees_subset (store next : Store) (id : String) (session : Session)
    (subset : ∀ slot ∈ next.slots, slot ∈ store.slots) (agrees : store.Agrees id session) :
    next.Agrees id session :=
  fun slot member same => agrees slot (subset slot member) same

theorem without_subset (id : String) (slots : List Slot) : ∀ slot ∈ without id slots, slot ∈ slots :=
  fun _ member => (List.mem_filter.mp member).1

theorem without_absent (id : String) (slots : List Slot) : ∀ slot ∈ without id slots, slot.id ≠ id :=
  fun _ member => bne_iff_ne.mp (List.mem_filter.mp member).2

theorem drop_oldest_sublist (slots : List Slot) : (dropOldest slots).Sublist slots := by
  unfold dropOldest
  split
  · exact List.Sublist.refl _
  · exact List.filter_sublist

theorem drop_repeat_sublist (count : Nat) (slots : List Slot) :
    (Nat.repeat dropOldest count slots).Sublist slots := by
  induction count with
  | zero => exact List.Sublist.refl _
  | succ count ih => exact (drop_oldest_sublist _).trans ih

theorem expire_subset (store : Store) (now : Nat) :
    ∀ slot ∈ (store.expire now).slots, slot ∈ store.slots :=
  fun _ member => (List.mem_filter.mp member).1

theorem remove_agrees (store : Store) (id other : String) (session : Session)
    (agrees : store.Agrees id session) : (store.remove other).2.Agrees id session :=
  agrees_subset store _ id session (without_subset other store.slots) agrees

theorem remove_dead (store : Store) (id : String) : ¬ (store.remove id).2.Live id := by
  intro live
  obtain ⟨slot, found⟩ := Option.isSome_iff_exists.mp live
  have member := List.mem_of_find?_eq_some found
  exact without_absent id store.slots slot member (by simpa using List.find?_some found)

theorem insert_agrees (store : Store) (id : String) (session : Session) (now : Nat) :
    (store.insert id session now).Agrees id session := by
  intro slot member same
  obtain old | new := List.mem_append.mp member
  · exact absurd same (without_absent id _ slot old)
  · rw [List.mem_singleton.mp new]

theorem insert_agrees_other (store : Store) (id other : String) (session new : Session) (now : Nat)
    (different : other ≠ id) (agrees : store.Agrees id session) :
    (store.insert other new now).Agrees id session := by
  intro slot member same
  obtain old | added := List.mem_append.mp member
  · have kept := without_subset other _ slot old
    have room := (drop_repeat_sublist _ _).mem kept
    exact agrees slot (expire_subset store now slot room) same
  · rw [List.mem_singleton.mp added] at same
    exact absurd same different

theorem modify_agrees (store : Store) (id other : String) (change : Slot → Slot) (session : Session)
    (id_kept : ∀ slot, (change slot).id = slot.id)
    (harmless : ∀ slot, slot.id = id → other = id → (change slot).session = slot.session)
    (agrees : store.Agrees id session) : (store.modify other change).Agrees id session := by
  intro slot member same
  obtain ⟨old, kept, rfl⟩ := List.mem_map.mp member
  split at same
  · rename_i target
    rw [if_pos target]
    rw [id_kept] at same
    have names : other = id := (beq_iff_eq.mp target).symm.trans same
    rw [harmless old same names]
    exact agrees old kept same
  · rename_i target
    rw [if_neg target]
    exact agrees old kept same

theorem update_agrees (store : Store) (id : String) (session : Session) :
    (store.update id session).Agrees id session := by
  intro slot member same
  obtain ⟨old, _, rfl⟩ := List.mem_map.mp member
  split at same
  · rename_i target
    rw [if_pos target]
  · rename_i target
    exact absurd (beq_iff_eq.mpr same) target

theorem update_agrees_other (store : Store) (id other : String) (session new : Session)
    (different : other ≠ id) (agrees : store.Agrees id session) :
    (store.update other new).Agrees id session :=
  modify_agrees store id other _ session (fun _ => rfl)
    (fun _ _ same => absurd same different) agrees

theorem touch_agrees (store : Store) (id other : String) (now : Nat) (session : Session)
    (agrees : store.Agrees id session) : (store.touch other now).2.Agrees id session := by
  unfold touch
  split
  · exact agrees
  split
  · exact remove_agrees store id other session agrees
  · exact modify_agrees store id other _ session (fun _ => rfl) (fun _ _ _ => rfl) agrees

theorem touch_dead (store : Store) (id : String) (now : Nat)
    (missed : (store.touch id now).1 = none) : ¬ (store.touch id now).2.Live id := by
  unfold touch at missed ⊢
  split at missed
  · rename_i absent
    simp [Live, absent]
  · split at missed
    · rename_i idle
      rw [if_pos idle]
      exact remove_dead store id
    · cases missed

theorem touch_found (store : Store) (id : String) (now : Nat) (session found : Session)
    (agrees : store.Agrees id session) (hit : (store.touch id now).1 = some found) :
    found = session := by
  unfold touch at hit
  split at hit
  · cases hit
  · rename_i slot present
    split at hit
    · cases hit
    · cases hit
      exact agrees slot (List.mem_of_find?_eq_some present) (by simpa using List.find?_some present)

theorem touch_limits (store : Store) (id : String) (now : Nat) :
    (store.touch id now).2.limits = store.limits := by
  unfold touch
  split
  · rfl
  split <;> rfl

end MarkdownServer.Http.Store
