import Mathlib.Data.List.Chain
import MarkdownServer.Proofs.Http.Sweeping
/- How long a session lives. Whether an id finds its session is decided by what was done to that id
   since it was last inserted: it was not removed, it was not evicted, and it was never left unused
   for too long. -/
set_option autoImplicit false

namespace MarkdownServer.Http

namespace Act

def touches (act : Act) (id : String) : Bool :=
  match act.operation with
  | .touch other => other == id
  | _ => false

def isInsertion (act : Act) : Bool :=
  match act.operation with
  | .insert _ _ => true
  | _ => false

def judges (act : Act) (id : String) : Bool :=
  match act.operation with
  | .insert _ _ => true
  | .touch other => other == id
  | .expire => true
  | _ => false

def concerns (act : Act) (id : String) : Bool :=
  match act.operation with
  | .insert other _ => other == id
  | .touch other => other == id
  | .update other _ => other == id
  | .remove other => other == id
  | .expire => false

def leaves (act : Act) (id : String) (session : Session) : Session :=
  match act.operation with
  | .update other next => if other = id then next else session
  | _ => session

end Act

namespace Store

variable (id : String)

def uses (acts : List Act) : List Nat :=
  (acts.filter fun act => act.touches id).map Act.now

def latest (session : Session) (acts : List Act) : Session :=
  acts.foldl (fun session act => act.leaves id session) session

-- The history up to the last insertion of an id, that insertion, and all since.
structure LastInsertion (history before : List Act) (opened : Nat) (first : Session)
    (since : List Act) : Prop where
  split : history = before ++ ⟨opened, .insert id first⟩ :: since
  last : ∀ act ∈ since, act.inserts id = false

def Spared (store : Store) (since : List Act) : Prop :=
  ∀ front act back, since = front ++ act :: back → act.isInsertion = true →
    (store.after front).evicts act.now id = false

def Used (limits : Limits) (times : List Nat) : Prop :=
  times.IsChain fun earlier later => later - earlier ≤ limits.idleTimeout

theorem spared_cons (store : Store) (act : Act) (since : List Act) :
    Spared id store (act :: since) ↔
      (act.isInsertion = true → store.evicts act.now id = false) ∧ Spared id (store.perform act).2 since := by
  constructor
  · intro spared
    refine ⟨spared [] act since rfl, fun front other back split inserts => ?_⟩
    exact spared (act :: front) other back (congrArg (act :: ·) split) inserts
  · rintro ⟨own, others⟩ front other back split inserts
    cases front with
    | nil =>
        cases split
        exact own inserts
    | cons earlier front =>
        cases split
        exact others front other back rfl inserts

theorem spared_nil (store : Store) : Spared id store [] := by
  intro front act back split
  cases front <;> cases split

theorem uses_cons (act : Act) (acts : List Act) :
    uses id (act :: acts) = if act.touches id then act.now :: uses id acts else uses id acts := by
  unfold uses
  rw [List.filter_cons]
  split <;> rfl

theorem active_iff (limits : Limits) (now : Nat) (slot : Slot) :
    isIdle limits now slot = false ↔ now - slot.lastSeen ≤ limits.idleTimeout := by
  rw [isIdle, decide_eq_false_iff_not, Nat.not_lt]

-- Whoever was in use at the next use was in use all the time up to it.
theorem used_active (limits : Limits) (slot : Slot) (since : List Act) (time now : Nat)
    (ordered : ∀ later ∈ since.map Act.now ++ [now], time ≤ later)
    (used : Used limits (slot.lastSeen :: (uses id since ++ [now]))) :
    isIdle limits time slot = false := by
  have next : ∃ later ∈ uses id since ++ [now], later - slot.lastSeen ≤ limits.idleTimeout := by
    cases times : uses id since with
    | nil =>
        rw [times] at used
        exact ⟨now, List.mem_cons_self, (List.isChain_cons_cons.mp used).1⟩
    | cons first rest =>
        rw [times] at used
        exact ⟨first, List.mem_cons_self, (List.isChain_cons_cons.mp used).1⟩
  obtain ⟨later, member, short⟩ := next
  have times : (uses id since ++ [now]).Sublist (since.map Act.now ++ [now]) :=
    (List.filter_sublist.map Act.now).append (List.Sublist.refl _)
  have after := ordered later (times.mem member)
  exact (active_iff limits time slot).mpr (by omega)

theorem fate_some (store : Store) (act : Act) (slot next : Slot) :
    store.fate act slot = some next ↔
      act.removes slot.id = false ∧ (act.isInsertion = true → store.evicts act.now slot.id = false) ∧
      (act.judges slot.id = true → isIdle store.limits act.now slot = false) ∧
      ⟨slot.id, act.leaves slot.id slot.session,
        if act.touches slot.id then act.now else slot.lastSeen⟩ = next := by
  obtain ⟨now, operation⟩ := act
  cases operation with
  | insert name session =>
      cases idle : isIdle store.limits now slot <;> cases gone : store.evicts now slot.id <;>
        simp [fate, Act.removes, Act.isInsertion, Act.judges, Act.leaves, Act.touches, idle, gone]
  | touch name =>
      by_cases same : slot.id = name
      · cases idle : isIdle store.limits now slot <;>
          simp [fate, Act.removes, Act.isInsertion, Act.judges, Act.leaves, Act.touches, idle, same]
      · simp [fate, Act.removes, Act.isInsertion, Act.judges, Act.leaves, Act.touches, same,
          Ne.symm same]
  | update name session =>
      by_cases same : slot.id = name
      · simp [fate, Act.removes, Act.isInsertion, Act.judges, Act.leaves, Act.touches, same]
      · simp [fate, Act.removes, Act.isInsertion, Act.judges, Act.leaves, Act.touches, same,
          Ne.symm same]
  | remove name =>
      by_cases same : slot.id = name
      · simp [fate, Act.removes, Act.isInsertion, Act.judges, Act.leaves, Act.touches, same]
      · simp [fate, Act.removes, Act.isInsertion, Act.judges, Act.leaves, Act.touches, same,
          Ne.symm same]
  | expire =>
      cases idle : isIdle store.limits now slot <;>
        simp [fate, Act.removes, Act.isInsertion, Act.judges, Act.leaves, Act.touches, idle]

theorem found_since (store : Store) (since : List Act) (slot : Slot) (now : Nat)
    (single : store.Sound) (found : store.find? id = some slot)
    (last : ∀ act ∈ since, act.inserts id = false) (kept : ∀ act ∈ since, act.removes id = false)
    (spared : Spared id store since) (used : Used store.limits (slot.lastSeen :: (uses id since ++ [now])))
    (ordered : (since.map Act.now ++ [now]).Pairwise (· ≤ ·)) :
    ((store.after since).touch id now).1 = some (latest id slot.session since) := by
  induction since generalizing store slot with
  | nil =>
      have active := used_active id store.limits slot [] now now (by simp) used
      exact (touch_some store id now _).mpr ⟨slot, found, active, rfl⟩
  | cons act since ih =>
      obtain ⟨_, named⟩ := (find_some store id slot single.single).mp found
      subst named
      obtain ⟨own, later⟩ := List.forall_mem_cons.mp last
      obtain ⟨stays, keeps⟩ := List.forall_mem_cons.mp kept
      obtain ⟨room, spares⟩ := (spared_cons _ store act since).mp spared
      obtain ⟨next, times⟩ := List.pairwise_cons.mp ordered
      have active : isIdle store.limits act.now slot = false := by
        rw [uses_cons] at used
        split at used
        · exact (active_iff _ _ _).mpr (List.isChain_cons_cons.mp used).1
        · exact used_active slot.id store.limits slot since act.now now next used
      have there : (store.perform act).2.find? slot.id = some ⟨slot.id, act.leaves slot.id slot.session,
          if act.touches slot.id then act.now else slot.lastSeen⟩ := by
        rw [perform_find store act slot.id single.single own, found]
        exact (fate_some store act slot _).mpr ⟨stays, room, fun _ => active, rfl⟩
      refine ih (store.perform act).2 _ (perform_sound store act single) there later keeps spares ?_ times
      rw [perform_limits]
      rw [uses_cons] at used
      split at used
      · rename_i touched
        rw [if_pos touched]
        exact (List.isChain_cons_cons.mp used).2
      · rename_i untouched
        rw [if_neg untouched]
        exact used

theorem since_found (store : Store) (since : List Act) (session : Session) (now : Nat)
    (single : store.Sound) (last : ∀ act ∈ since, act.inserts id = false)
    (found : ((store.after since).touch id now).1 = some session) :
    ∃ slot, store.find? id = some slot ∧ (∀ act ∈ since, act.removes id = false) ∧
      Spared id store since ∧ Used store.limits (slot.lastSeen :: (uses id since ++ [now])) ∧
      session = latest id slot.session since := by
  induction since generalizing store with
  | nil =>
      obtain ⟨slot, present, active, same⟩ := (touch_some store id now session).mp found
      refine ⟨slot, present, nofun, spared_nil id store, ?_, same.symm⟩
      simpa [Used, uses] using (active_iff _ _ _).mp active
  | cons act since ih =>
      obtain ⟨own, later⟩ := List.forall_mem_cons.mp last
      obtain ⟨next, there, keeps, spares, used, same⟩ :=
        ih (store.perform act).2 (perform_sound store act single) later found
      rw [perform_find store act id single.single own] at there
      obtain ⟨slot, present, fated⟩ := Option.bind_eq_some_iff.mp there
      obtain ⟨_, named⟩ := (find_some store id slot single.single).mp present
      subst named
      obtain ⟨stays, room, active, rfl⟩ := (fate_some store act slot next).mp fated
      refine ⟨slot, present, List.forall_mem_cons.mpr ⟨stays, keeps⟩,
        (spared_cons _ store act since).mpr ⟨room, spares⟩, ?_, same⟩
      rw [perform_limits] at used
      rw [uses_cons]
      dsimp only at used
      split
      · rename_i touched
        rw [if_pos touched] at used
        have judged : act.judges slot.id = true := by
          unfold Act.touches at touched
          unfold Act.judges
          split at touched <;> simp_all
        exact List.isChain_cons_cons.mpr ⟨(active_iff _ _ _).mp (active judged), used⟩
      · rename_i untouched
        rw [if_neg untouched] at used
        exact used

theorem last_insertion (history : List Act) : (∀ act ∈ history, act.inserts id = false) ∨
    ∃ before opened first since, LastInsertion id history before opened first since := by
  induction history with
  | nil => exact .inl nofun
  | cons act history ih =>
      obtain none | ⟨before, opened, first, since, split, last⟩ := ih
      · cases own : act.inserts id with
        | false => exact .inl (List.forall_mem_cons.mpr ⟨own, none⟩)
        | true =>
            obtain ⟨now, operation⟩ := act
            cases operation with
            | insert name session =>
                cases (beq_iff_eq.mp own : name = id)
                exact .inr ⟨[], now, session, history, rfl, none⟩
            | _ => cases own
      · exact .inr ⟨act :: before, opened, first, since, congrArg (act :: ·) split, last⟩

-- The id was inserted, and has since been neither removed nor evicted nor unused for too long.
structure Lives (limits : Limits) (history : List Act) (now : Nat) (session : Session)
    (before : List Act) (opened : Nat) (first : Session) (since : List Act) : Prop where
  last : LastInsertion id history before opened first since
  kept : ∀ act ∈ since, act.removes id = false
  spared : Spared id ((empty limits).after (before ++ [⟨opened, .insert id first⟩])) since
  used : Used limits (opened :: (uses id since ++ [now]))
  state : session = latest id first since

def Ordered (history : List Act) (now : Nat) : Prop :=
  (history.map Act.now ++ [now]).Pairwise (· ≤ ·)

theorem after_insertion (store : Store) (before : List Act) (opened : Nat) (first : Session)
    (since : List Act) : store.after (before ++ ⟨opened, .insert id first⟩ :: since) =
      (store.after (before ++ [⟨opened, .insert id first⟩])).after since := by
  rw [← after_append, List.append_assoc, List.singleton_append]

theorem inserted_found (store : Store) (before : List Act) (opened : Nat) (first : Session) :
    (store.after (before ++ [⟨opened, .insert id first⟩])).find? id = some ⟨id, first, opened⟩ := by
  rw [after_append]
  exact find_insert _ id first opened

theorem touch_lives (limits : Limits) (history : List Act) (now : Nat) (session : Session)
    (ordered : Ordered history now) :
    (((empty limits).after history).touch id now).1 = some session ↔
      ∃ before opened first since, Lives id limits history now session before opened first since := by
  have sound (past : List Act) : ((empty limits).after past).Sound := after_sound _ past (empty_sound limits)
  constructor
  · intro found
    obtain none | ⟨before, opened, first, since, split, last⟩ := last_insertion id history
    · obtain ⟨slot, present, _⟩ :=
        since_found id (empty limits) history session now (empty_sound limits) none found
      cases present
    · rw [split, after_insertion] at found
      obtain ⟨slot, present, kept, spared, used, state⟩ :=
        since_found id _ since session now (sound _) last found
      cases present.symm.trans (inserted_found id (empty limits) before opened first)
      rw [after_limits] at used
      exact ⟨before, opened, first, since, ⟨split, last⟩, kept, spared, used, state⟩
  · rintro ⟨before, opened, first, since, ⟨split, last⟩, kept, spared, used, state⟩
    have times : (since.map Act.now ++ [now]).Pairwise (· ≤ ·) := by
      rw [Ordered, split, List.map_append, List.map_cons, List.append_assoc, List.cons_append] at ordered
      exact (List.pairwise_cons.mp (List.pairwise_append.mp ordered).2.1).2
    have found := inserted_found id (empty limits) before opened first
    rw [split, after_insertion, state]
    refine found_since id _ since _ now (sound _) found last kept spared ?_ times
    rw [after_limits]
    exact used

theorem gone_since (store : Store) (since : List Act) (now : Nat) (single : store.Sound)
    (gone : store.find? id = none) (last : ∀ act ∈ since, act.inserts id = false) :
    ((store.after since).touch id now).1 = none := by
  cases found : ((store.after since).touch id now).1 with
  | none => rfl
  | some session =>
      obtain ⟨slot, present, _⟩ := since_found id store since session now single last found
      cases gone.symm.trans present

theorem swept_touch (store : Store) (history : List Act) (time now : Nat) (sound : store.Sound)
    (ordered : ∀ act ∈ history, time ≤ act.now) (later : time ≤ now) :
    (((store.expire time).after history).touch id now).1 = ((store.after history).touch id now).1 := by
  rw [expire_after store history sound ordered,
    expire_touch _ id (after_sound store history sound).single later]

def own (history : List Act) : List Act :=
  history.filter fun act => act.concerns id

theorem concerns_touches (act : Act) (touched : act.touches id = true) : act.concerns id = true := by
  obtain ⟨now, operation⟩ := act
  cases operation <;> first | exact touched | cases touched

theorem uses_own (acts : List Act) : uses id (own id acts) = uses id acts := by
  unfold uses own
  rw [List.filter_filter]
  congr 2
  funext act
  cases touched : act.touches id with
  | false => rfl
  | true => exact concerns_touches id act touched

theorem leaves_other (act : Act) (session : Session) (other : act.concerns id = false) :
    act.leaves id session = session := by
  obtain ⟨now, operation⟩ := act
  cases operation with
  | update name next => exact if_neg fun same => by simp [Act.concerns, same] at other
  | _ => rfl

theorem latest_own (session : Session) (acts : List Act) :
    latest id session (own id acts) = latest id session acts := by
  induction acts generalizing session with
  | nil => rfl
  | cons act acts ih =>
      unfold own latest at ih ⊢
      rw [List.filter_cons, List.foldl_cons]
      cases concerned : act.concerns id with
      | true =>
          rw [if_pos rfl]
          exact ih (act.leaves id session)
      | false =>
          rw [if_neg (by decide), leaves_other id act session concerned]
          exact ih session

theorem own_all (asks : Act → Bool) (acts : List Act)
    (names : ∀ act, asks act = true → act.concerns id = true) :
    (∀ act ∈ own id acts, asks act = false) ↔ ∀ act ∈ acts, asks act = false := by
  refine ⟨fun all act member => ?_, fun all act member => all act (List.mem_filter.mp member).1⟩
  by_contra asked
  have asked' : asks act = true := by simpa using asked
  exact asked (all act (List.mem_filter.mpr ⟨member, names act asked'⟩))

theorem last_unique {α : Type} (p : α → Bool) (front front' back back' : List α) (a a' : α)
    (same : front ++ a :: back = front' ++ a' :: back') (here : p a = true) (here' : p a' = true)
    (last : ∀ b ∈ back, p b = false) (last' : ∀ b ∈ back', p b = false) : a = a' ∧ back = back' := by
  have reversed (front back : List α) (a : α) (here : p a = true) (last : ∀ b ∈ back, p b = false) :
      (front ++ a :: back).reverse.takeWhile (fun b => !p b) = back.reverse := by
    rw [List.reverse_append, List.reverse_cons, List.append_assoc, List.takeWhile_append_of_pos]
    · simp [here]
    · intro b member
      rw [last b (List.mem_reverse.mp member)]
      rfl
  have backs : back = back' := by
    have := reversed front back a here last
    rw [same, reversed front' back' a' here' last'] at this
    exact (List.reverse_injective this).symm
  subst backs
  have fronts : front ++ [a] = front' ++ [a'] := by
    refine (List.append_left_inj back).mp ?_
    simpa using same
  exact ⟨List.head_eq_of_cons_eq (List.append_inj' fronts rfl).2, rfl⟩

def NotEvicted (limits : Limits) (history : List Act) : Prop :=
  ∀ before opened first since, LastInsertion id history before opened first since →
    Spared id ((empty limits).after (before ++ [⟨opened, .insert id first⟩])) since

theorem own_insertion (history before : List Act) (opened : Nat) (first : Session) (since : List Act)
    (last : LastInsertion id history before opened first since) :
    own id history = own id before ++ ⟨opened, .insert id first⟩ :: own id since := by
  have concerned : Act.concerns ⟨opened, .insert id first⟩ id = true := beq_self_eq_true id
  rw [last.split]
  simp only [own, List.filter_append, List.filter_cons, concerned, if_true]

theorem inserts_concerns (act : Act) (inserts : act.inserts id = true) : act.concerns id = true := by
  obtain ⟨now, operation⟩ := act
  cases operation <;> first | exact inserts | cases inserts

theorem removes_concerns (act : Act) (removes : act.removes id = true) : act.concerns id = true := by
  obtain ⟨now, operation⟩ := act
  cases operation <;> first | exact removes | cases removes

-- A history in which the same was done to the id gives it the same life.
theorem lives_own (limits : Limits) (history other before : List Act) (now opened : Nat)
    (session first : Session) (since : List Act)
    (lives : Lives id limits history now session before opened first since)
    (same : own id history = own id other) (spared : NotEvicted id limits other) :
    ∃ before since, Lives id limits other now session before opened first since := by
  have inserts : Act.inserts ⟨opened, .insert id first⟩ id = true := beq_self_eq_true id
  have shown := own_insertion id history before opened first since lives.last
  obtain none | ⟨before', opened', first', since', last⟩ := last_insertion id other
  · have absent := (own_all id (·.inserts id) other (inserts_concerns id)).mpr none
    rw [← same, shown] at absent
    have := absent _ (List.mem_append_right _ List.mem_cons_self)
    rw [inserts] at this
    cases this
  · have shown' := own_insertion id other before' opened' first' since' last
    rw [← same, shown] at shown'
    have ends (acts : List Act) := own_all id (·.inserts id) acts (inserts_concerns id)
    obtain ⟨insertion, rest⟩ := last_unique (·.inserts id) _ _ _ _ _ _ shown' inserts
      (beq_self_eq_true id) ((ends since).mpr lives.last.last) ((ends since').mpr last.last)
    cases insertion
    have removed (acts : List Act) := own_all id (·.removes id) acts (removes_concerns id)
    refine ⟨before', since', last, ?_, spared _ _ _ _ last, ?_, ?_⟩
    · rw [← removed, ← rest, removed]
      exact lives.kept
    · rw [← uses_own, ← rest, uses_own]
      exact lives.used
    · rw [← latest_own, ← rest, latest_own]
      exact lives.state

structure SessionLife (limits : Limits) : Prop where
  found : ∀ history now session, Ordered history now →
    ((((empty limits).after history).touch id now).1 = some session ↔
      ∃ before opened first since, Lives id limits history now session before opened first since)
  ended : ∀ history time since now, (∀ act ∈ since, act.inserts id = false) →
    let store := (empty limits).after history
    ((store.touch id time).1 = none → (((store.touch id time).2.after since).touch id now).1 = none) ∧
      (((store.remove id).2.after since).touch id now).1 = none
  swept : ∀ before since time now, (∀ act ∈ since, time ≤ act.now) → time ≤ now →
    (((empty limits).after (before ++ ⟨time, .expire⟩ :: since)).touch id now).1 =
      (((empty limits).after (before ++ since)).touch id now).1
  apart : ∀ history other now, Ordered history now → Ordered other now →
    own id history = own id other → NotEvicted id limits history → NotEvicted id limits other →
    (((empty limits).after history).touch id now).1 = (((empty limits).after other).touch id now).1

theorem session_life (limits : Limits) : SessionLife id limits where
  found history now session ordered := touch_lives id limits history now session ordered
  ended history time since now last := by
    have sound := after_sound _ history (empty_sound limits)
    dsimp only
    generalize (empty limits).after history = store at sound
    refine ⟨fun missed => ?_, ?_⟩
    · have dead := touch_dead store id time missed
      exact gone_since id _ since now (touch_sound store id time sound)
        (Option.not_isSome_iff_eq_none.mp dead) last
    · have dead := remove_dead store id
      exact gone_since id _ since now (filter_sound store _ sound)
        (Option.not_isSome_iff_eq_none.mp dead) last
  swept before since time now ordered later := by
    have sound := after_sound _ before (empty_sound limits)
    rw [after_append, after_append, after_cons]
    exact swept_touch id _ since time now sound ordered later
  apart history other now ordered ordered' same spared spared' := by
    ext session
    rw [touch_lives id limits history now session ordered, touch_lives id limits other now session ordered']
    constructor
    · rintro ⟨before, opened, first, since, lives⟩
      obtain ⟨before', since', lives'⟩ := lives_own id limits history other before now opened session first
        since lives same spared'
      exact ⟨before', opened, first, since', lives'⟩
    · rintro ⟨before, opened, first, since, lives⟩
      obtain ⟨before', since', lives'⟩ := lives_own id limits other history before now opened session first
        since lives same.symm spared
      exact ⟨before', opened, first, since', lives'⟩

def renewal : List Act := [⟨0, .insert "a" .awaiting⟩, ⟨seconds 1, .touch "a"⟩]

theorem session_life_renewed : Ordered renewal (seconds 2) ∧
    (((empty brief).after renewal).touch "a" (seconds 2)).1 = some .awaiting := by
  have ordered : Ordered renewal (seconds 2) := by
    unfold Ordered
    decide
  refine ⟨ordered, ((session_life "a" brief).found renewal (seconds 2) .awaiting ordered).mpr ?_⟩
  refine ⟨[], 0, .awaiting, [⟨seconds 1, .touch "a"⟩], ⟨rfl, by decide⟩, by decide, ?_, ?_, rfl⟩
  · exact (spared_cons "a" _ _ _).mpr ⟨nofun, spared_nil "a" _⟩
  · unfold Used
    decide

end Store
end MarkdownServer.Http
