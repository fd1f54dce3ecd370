import Mathlib.Data.List.Induction
import MarkdownServer.Proofs.Http.History
/- The cap on open sessions. The store never holds more sessions than are allowed; a new session
   takes the place of at most one other, of the one that has gone unused longest. -/
set_option autoImplicit false

namespace MarkdownServer.Http

inductive Setting where
  | idleTimeout (time : Nat)
  | sessions (count : Nat)

namespace Limits

def set (limits : Limits) : Setting → Limits
  | .idleTimeout time => limits.setIdleTimeout time
  | .sessions count => limits.setSessions count

def built (inputLimit : Nat) (settings : List Setting) : Limits :=
  settings.foldl set (forInput inputLimit)

def requested (settings : List Setting) : Nat :=
  settings.foldl (fun count setting =>
    match setting with
    | .idleTimeout _ => count
    | .sessions other => other) standardSessions

theorem built_sessions (inputLimit : Nat) (settings : List Setting) :
    (built inputLimit settings).sessions = max 1 (requested settings) := by
  unfold built requested
  induction settings using List.reverseRecOn with
  | nil => rfl
  | append_singleton settings setting ih =>
      simp only [List.foldl_append, List.foldl_cons, List.foldl_nil]
      cases setting with
      | idleTimeout time => simpa only [set, setIdleTimeout] using ih
      | sessions count => simp only [set, setSessions]

end Limits

namespace Store

structure GivesWay (cap : Nat) (active others : List Slot) : Prop where
  free : active.length < cap → others = active
  full : cap ≤ active.length → others.length = cap - 1 ∧ others.Sublist active ∧
    ∀ kept ∈ others, ∀ gone ∈ active, gone ∉ others → gone.lastSeen < kept.lastSeen
  one : active.length ≤ others.length + 1

theorem without_length (slots : List Slot) (slot : Slot) (single : (slots.map Slot.id).Nodup)
    (member : slot ∈ slots) : (without slot.id slots).length + 1 = slots.length := by
  have count : slots.countP (fun other => other.id == slot.id) = 1 := by
    have once := List.count_eq_one_of_mem single (List.mem_map_of_mem member)
    rwa [List.count, List.countP_map] at once
  have total := List.length_eq_countP_add_countP (fun other : Slot => other.id == slot.id) (l := slots)
  have kept : (without slot.id slots).length =
      slots.countP fun other => decide ¬ (other.id == slot.id) = true := by
    rw [without, ← List.countP_eq_length_filter]
    refine List.countP_congr fun other _ => ?_
    simp
  omega

theorem insert_others (store : Store) (id : String) (session : Session) (now : Nat)
    (fresh : id ∉ store.ids) :
    without id (store.insert id session now).slots = (store.expire now).makeRoom.slots := by
  have absent : id ∉ (store.expire now).makeRoom.ids := by
    intro member
    obtain ⟨slot, kept, named⟩ := List.mem_map.mp member
    have active := (drop_repeat_sublist _ _).mem kept
    exact fresh (List.mem_map.mpr ⟨slot, expire_subset store now slot active, named⟩)
  unfold insert
  dsimp only
  rw [without_gone id _ absent, without, List.filter_append, ← without, without_gone id _ absent]
  simp

theorem make_room_gives_way (store : Store) (sound : store.Sound)
    (distinct : (store.slots.map Slot.lastSeen).Nodup) :
    GivesWay store.limits.sessions store.slots store.makeRoom.slots := by
  rw [make_room_slots store sound.few]
  by_cases free : store.size < store.limits.sessions
  · rw [if_pos free]
    exact ⟨fun _ => rfl, fun full => absurd free (Nat.not_lt.mpr full), Nat.le_succ _⟩
  rw [if_neg free]
  unfold dropOldest
  cases found : oldest? store.slots with
  | none =>
      have empty : store.size = 0 := by rw [size, oldest_none _ found, List.length_nil]
      have positive := store.limits.positive
      omega
  | some oldest =>
      obtain ⟨member, least⟩ := oldest_least store.slots oldest found
      have shorter := without_length store.slots oldest sound.single member
      have few : store.slots.length ≤ store.limits.sessions := sound.few
      dsimp only
      refine ⟨fun below => absurd below free, fun full => ⟨by omega, List.filter_sublist, ?_⟩, by omega⟩
      intro kept inside gone active dropped
      have gone_oldest : gone = oldest := by
        refine List.inj_on_of_nodup_map sound.single active member ?_
        by_contra different
        exact dropped (List.mem_filter.mpr ⟨active, bne_iff_ne.mpr different⟩)
      subst gone_oldest
      refine Nat.lt_of_le_of_ne (least kept (without_subset _ _ kept inside)) fun same => ?_
      have again := List.inj_on_of_nodup_map distinct member (without_subset _ _ kept inside) same
      exact without_absent _ _ kept inside (congrArg Slot.id again.symm)

/- Whatever was done to a store, under whatever limits: it holds each id at most once and no more
   sessions than asked for, or one. A new session is always there, and another session that is in use
   goes for it only when the store is full, and only the one that all others were used after. -/
theorem session_cap_kept (inputLimit : Nat) (settings : List Setting) (history : List Act) :
    let store := (empty (Limits.built inputLimit settings)).after history
    let cap := max 1 (Limits.requested settings)
    store.size ≤ cap ∧ store.ids.Nodup ∧
      ∀ id session now, (store.insert id session now).find? id = some ⟨id, session, now⟩ ∧
        (id ∉ store.ids → (store.slots.map Slot.lastSeen).Nodup →
          GivesWay cap (store.slots.filter fun slot => !isIdle store.limits now slot)
            (without id (store.insert id session now).slots)) := by
  intro store cap
  have sound : store.Sound := after_sound _ history (empty_sound _)
  have limit : store.limits.sessions = cap := by
    rw [after_limits]
    exact Limits.built_sessions inputLimit settings
  refine ⟨limit ▸ sound.few, sound.single, fun id session now => ⟨find_insert store id session now, ?_⟩⟩
  intro fresh distinct
  have swept : (store.expire now).Sound := filter_sound store _ sound
  have distinct' : ((store.expire now).slots.map Slot.lastSeen).Nodup :=
    distinct.sublist (List.filter_sublist.map Slot.lastSeen)
  rw [insert_others store id session now fresh, ← limit]
  exact make_room_gives_way (store.expire now) swept distinct'

def pair : List Act :=
  [⟨0, .insert "a" .awaiting⟩, ⟨1, .insert "b" .awaiting⟩, ⟨2, .touch "a"⟩]

theorem session_cap_kept_pair :
    let store := (empty (Limits.built 0 [.sessions 0, .sessions 2])).after pair
    "c" ∉ store.ids ∧ (store.slots.map Slot.lastSeen).Nodup ∧
      without "c" (store.insert "c" .awaiting 3).slots = [⟨"a", .awaiting, 2⟩] ∧
      GivesWay 2 (store.slots.filter fun slot => !isIdle store.limits 3 slot)
        (without "c" (store.insert "c" .awaiting 3).slots) := by
  refine ⟨by decide, by decide, by decide, ?_⟩
  exact ((session_cap_kept 0 [.sessions 0, .sessions 2] pair).2.2 "c" .awaiting 3).2 (by decide) (by decide)

end Store
end MarkdownServer.Http
