import MarkdownServer.Proofs.Json.Scalars
/- The reader takes just the texts of the grammar, and gives the values they have there. Arrays and
   objects are listings, so both directions are shown once for any listing. -/
set_option autoImplicit false

namespace MarkdownServer.Json

def Means (draft : Draft) (v : Value) : Prop := draft.value = .ok v

def MemberMeans (draft : Draft × Draft) (m : String × Value) : Prop :=
  draft.1 = .text m.1 ∧ draft.2.value = .ok m.2

theorem item_values_read (drafts : List Draft) (items done : List Value)
    (all : List.Forall₂ Means drafts items) : itemValues done drafts = .ok (done.reverse ++ items) := by
  induction all generalizing done with
  | nil => simp [itemValues]
  | cons first _ ih =>
      rw [itemValues, first]
      dsimp only
      rw [ih]
      simp

theorem member_values_read (drafts : List (Draft × Draft)) (members done : List (String × Value))
    (all : List.Forall₂ MemberMeans drafts members) :
    memberValues done drafts =
      .ok (members.foldl (fun done m => insertMember m.1 m.2 done) done) := by
  induction all generalizing done with
  | nil => simp [memberValues]
  | cons first _ ih =>
      rename_i draft m _ _ _
      obtain ⟨name, value⟩ := draft
      obtain ⟨rfl, known⟩ := first
      rw [memberValues.eq_def]
      dsimp only at known ⊢
      rw [known]
      exact ih _

theorem array_means (drafts : List Draft) (items : List Value) (all : List.Forall₂ Means drafts items) :
    Means (.array drafts none) (.array items) := by
  unfold Means
  rw [Draft.value, item_values_read drafts items [] all]
  rfl

theorem object_means (drafts : List (Draft × Draft)) (members : List (String × Value))
    (all : List.Forall₂ MemberMeans drafts members) :
    Means (.object drafts none) (.ofMembers members) := by
  unfold Means
  rw [Draft.value, member_values_read drafts members [] all]
  rfl

-- A listing that is read one entry after the other: what an entry is, how one is spelled, and which
-- drafts mean it.
structure Lister (α δ : Type) where
  close : Char
  listing : List δ → Listing
  entry : Nat → List δ → List Char → Reading
  next : Nat → Bool → List δ → List Char → Reading
  spelled : α → List Char → Prop
  means : δ → α → Prop

namespace Lister

variable {α δ : Type} (lister : Lister α δ)

structure Sound : Prop where
  unfolds : ∀ steps first done cs, lister.next (steps + 1) first done cs =
    (lister.listing done).read (lister.entry steps done) first (skipSpace cs)
  close : ∀ done, (lister.listing done).close = lister.close
  solid : isSpace lister.close = false
  ends : isEnd lister.close = true
  comma : lister.close ≠ ','
  start : ∀ a body, lister.spelled a body →
    ∃ c rest, body = c :: rest ∧ isSpace c = false ∧ c ≠ lister.close

inductive Follows : List α → List Char → Prop where
  | none (back : List Char) (blank : Blank back) : Follows [] back
  | more (a : α) (as : List α) (back inside : List Char) (blank : Blank back)
      (listed : Listed lister.spelled (a :: as) inside) : Follows (a :: as) (back ++ ',' :: inside)

variable {lister}

theorem follows_listed (a : α) (as : List α) (front body tail : List Char) (before : Blank front)
    (spelled : lister.spelled a body) (follows : lister.Follows as tail) :
    Listed lister.spelled (a :: as) (front ++ body ++ tail) := by
  cases follows with
  | none _ blank => exact .last a front body tail before spelled blank
  | more b as back inside blank listed =>
      have listed := Listed.cons a b as front body back inside before spelled blank listed
      simpa using listed

def Reads (lister : Lister α δ) (steps : Nat) : Prop :=
  ∀ first done cs draft rest, lister.next steps first done cs = (draft, some rest) →
    ∃ ds as inside, List.Forall₂ lister.means ds as ∧
      draft = (lister.listing (ds.reverse ++ done)).made none ∧ cs = inside ++ lister.close :: rest ∧
      if first then Listed lister.spelled as inside else lister.Follows as inside

def ReadsEntry (lister : Lister α δ) (steps : Nat) : Prop :=
  ∀ done c cs draft rest, isSpace c = false → lister.entry steps done (c :: cs) = (draft, some rest) →
    ∃ d a body left, c :: cs = body ++ left ∧ lister.spelled a body ∧ lister.means d a ∧
      lister.next steps false (d :: done) left = (draft, some rest)

theorem entry_listed (steps : Nat) (entry : lister.ReadsEntry steps) (reads : lister.Reads steps)
    (done : List δ) (cs front text : List Char) (c : Char) (split : cs = front ++ c :: text)
    (blank : Blank front) (solid : isSpace c = false) (draft : Draft) (rest : List Char)
    (read : lister.entry steps done (c :: text) = (draft, some rest)) :
    ∃ ds a as inside, List.Forall₂ lister.means ds (a :: as) ∧
      draft = (lister.listing (ds.reverse ++ done)).made none ∧ cs = inside ++ lister.close :: rest ∧
      Listed lister.spelled (a :: as) inside := by
  obtain ⟨d, a, body, left, taken, spelled, means, read⟩ := entry done c text draft rest solid read
  obtain ⟨ds, as, tail, all, rfl, rfl, follows⟩ := reads false (d :: done) left draft rest read
  refine ⟨d :: ds, a, as, front ++ body ++ tail, .cons means all, by simp, ?_,
    follows_listed a as front body tail blank spelled follows⟩
  rw [split, taken]
  simp

theorem next_reads (sound : lister.Sound) (steps : Nat) (entry : lister.ReadsEntry steps)
    (reads : lister.Reads steps) : lister.Reads (steps + 1) := by
  intro first done cs draft rest read
  rw [sound.unfolds] at read
  obtain ⟨front, blank, split⟩ := skip_space_split cs
  cases skipped : skipSpace cs with
  | nil =>
      rw [skipped] at read
      cases read
  | cons c text =>
      have solid := skip_space_solid cs text c skipped
      rw [skipped] at read split
      dsimp only [Listing.read] at read
      rw [sound.close] at read
      split at read
      · rename_i close
        cases read
        refine ⟨[], [], front, .nil, rfl, by rw [split, close], ?_⟩
        cases first with
        | true => exact .none front blank
        | false => exact .none front blank
      split at read
      · rename_i start
        obtain ⟨ds, a, as, inside, all, made, split, listed⟩ :=
          entry_listed steps entry reads done cs front text c split blank solid draft rest read
        exact ⟨ds, a :: as, inside, all, made, split, by rw [if_pos start]; exact listed⟩
      rename_i start
      split at read
      · rename_i comma
        obtain ⟨front', blank', split'⟩ := skip_space_split text
        split at read
        · cases read
        rename_i d text' skipped'
        have solid' := skip_space_solid text text' d skipped'
        rw [skipped'] at split'
        split at read
        · cases read
        obtain ⟨ds, a, as, inside, all, made, split'', listed⟩ :=
          entry_listed steps entry reads done text front' text' d split' blank' solid' draft rest read
        refine ⟨ds, a :: as, front ++ ',' :: inside, all, made, by rw [split, split'', comma]; simp, ?_⟩
        rw [if_neg start]
        exact .more a as front inside blank listed
      · cases read

def TakesEntry (lister : Lister α δ) : Prop :=
  ∀ a body, lister.spelled a body → ∀ steps, body.length < steps → ∀ done rest, Ends rest →
    ∃ d, lister.means d a ∧
      lister.entry steps done (body ++ rest) = lister.next steps false (d :: done) rest

theorem entries_taken (sound : lister.Sound) (entry : lister.TakesEntry) (as : List α)
    (inside : List Char) (listed : Listed lister.spelled as inside) (some_ : as ≠ []) (steps : Nat)
    (enough : inside.length < steps) (done : List δ) (rest : List Char) :
    ∃ ds c text, List.Forall₂ lister.means ds as ∧ c ≠ lister.close ∧
      skipSpace (inside ++ lister.close :: rest) = c :: text ∧
      lister.entry steps done (c :: text) =
        ((lister.listing (ds.reverse ++ done)).made none, some rest) := by
  induction listed generalizing steps done with
  | none => exact absurd rfl some_
  | last a front body back before spelled behind =>
      obtain ⟨c, text, start, solid, other⟩ := sound.start a body spelled
      simp only [List.length_append] at enough
      have ends : Ends (back ++ lister.close :: rest) :=
        blank_ends back _ behind (by simpa [Ends] using sound.ends)
      obtain ⟨d, means, taken⟩ := entry a body spelled steps (by omega) done _ ends
      refine ⟨[d], c, text ++ (back ++ lister.close :: rest), .cons means .nil, other, ?_, ?_⟩
      · rw [start]
        simpa using skip_space_past front (text ++ (back ++ lister.close :: rest)) before c solid
      · rw [start, List.cons_append] at taken
        obtain ⟨fewer, rfl⟩ : ∃ fewer, steps = fewer + 1 := ⟨steps - 1, by omega⟩
        rw [taken, sound.unfolds, skip_space_past back rest behind _ sound.solid]
        simp [Listing.read, sound.close]
  | cons a b more front body back inside before spelled behind _ ih =>
      obtain ⟨c, text, start, solid, other⟩ := sound.start a body spelled
      simp only [List.length_append, List.length_cons] at enough
      have ends : Ends (back ++ ',' :: (inside ++ lister.close :: rest)) :=
        blank_ends back _ behind (by simp [Ends, isEnd])
      obtain ⟨d, means, taken⟩ := entry a body spelled steps (by omega) done _ ends
      obtain ⟨fewer, rfl⟩ : ∃ fewer, steps = fewer + 1 := ⟨steps - 1, by omega⟩
      obtain ⟨ds, c', text', all, other', skipped, read⟩ :=
        ih (List.cons_ne_nil b more) fewer (by omega) (d :: done)
      refine ⟨d :: ds, c, text ++ (back ++ ',' :: (inside ++ lister.close :: rest)), .cons means all,
        other, ?_, ?_⟩
      · rw [start]
        simpa using
          skip_space_past front (text ++ (back ++ ',' :: (inside ++ lister.close :: rest))) before c solid
      · rw [start, List.cons_append] at taken
        rw [taken, sound.unfolds, skip_space_past back _ behind _ (by decide)]
        dsimp only [Listing.read]
        rw [sound.close, if_neg sound.comma.symm, if_neg Bool.false_ne_true, if_pos rfl, skipped]
        dsimp only
        rw [if_neg other', read]
        simp

theorem listing_taken (sound : lister.Sound) (entry : lister.TakesEntry) (as : List α)
    (inside : List Char) (listed : Listed lister.spelled as inside) (steps : Nat)
    (enough : inside.length < steps) (rest : List Char) :
    ∃ ds, List.Forall₂ lister.means ds as ∧
      lister.next (steps + 1) true [] (inside ++ lister.close :: rest) =
        ((lister.listing ds.reverse).made none, some rest) := by
  cases as with
  | nil =>
      cases listed with
      | none _ blank =>
          refine ⟨[], .nil, ?_⟩
          rw [sound.unfolds, skip_space_past inside rest blank _ sound.solid]
          simp [Listing.read, sound.close]
  | cons a as =>
      obtain ⟨ds, c, text, all, other, skipped, read⟩ :=
        entries_taken sound entry (a :: as) inside listed (List.cons_ne_nil a as) steps enough [] rest
      refine ⟨ds, all, ?_⟩
      rw [sound.unfolds, skipped]
      dsimp only [Listing.read]
      rw [sound.close, if_neg other, if_pos rfl, read, List.append_nil]

def items (levels : Nat) : Lister Value Draft where
  close := ']'
  listing := Listing.items
  entry steps done := readItem steps (levels + 1) done
  next steps first done := readItems steps (levels + 1) first done
  spelled := Spelled levels
  means := Means

def members (levels : Nat) : Lister (String × Value) (Draft × Draft) where
  close := '\x7d'
  listing := Listing.members
  entry steps done := readMember steps (levels + 1) done
  next steps first done := readMembers steps (levels + 1) first done
  spelled := MemberSpelled (Spelled levels)
  means := MemberMeans

end Lister

theorem spelled_start (levels : Nat) (v : Value) (body : List Char) (spelled : Spelled levels v body) :
    ∃ c rest, body = c :: rest ∧ Starts c := by
  have scalar (spelled : ScalarSpelled v body) : ∃ c rest, body = c :: rest ∧ Starts c := by
    obtain ⟨c, rest, start, starts, _⟩ := scalar_start v body spelled
    exact ⟨c, rest, start, starts⟩
  cases levels with
  | zero => exact scalar spelled
  | succ levels =>
      cases spelled with
      | scalar _ _ spelled => exact scalar spelled
      | array => exact ⟨'[', _, rfl, by decide, by decide, by decide⟩
      | object => exact ⟨'\x7b', _, rfl, by decide, by decide, by decide⟩

theorem items_sound (levels : Nat) : (Lister.items levels).Sound where
  unfolds steps first done cs := read_items_listing steps (levels + 1) first done cs
  close _ := rfl
  solid := (by decide : isSpace ']' = false)
  ends := (by decide : isEnd ']' = true)
  comma := (by decide : ']' ≠ ',')
  start v body spelled := by
    obtain ⟨c, rest, start, starts⟩ := spelled_start levels v body spelled
    exact ⟨c, rest, start, starts.solid, starts.bracket⟩

theorem members_sound (levels : Nat) : (Lister.members levels).Sound where
  unfolds steps first done cs := read_members_listing steps (levels + 1) first done cs
  close _ := rfl
  solid := (by decide : isSpace '\x7d' = false)
  ends := (by decide : isEnd '\x7d' = true)
  comma := (by decide : '\x7d' ≠ ',')
  start m body spelled := by
    cases spelled with
    | mk => exact ⟨'"', _, rfl, by decide, (by decide : '"' ≠ '\x7d')⟩

theorem read_colon_sound (cs rest : List Char) (read : readColon cs = .ok rest) :
    ∃ space, Blank space ∧ cs = space ++ ':' :: rest := by
  obtain ⟨space, blank, split⟩ := skip_space_split cs
  unfold readColon at read
  split at read
  · cases read
  · rename_i skipped
    cases read
    exact ⟨space, blank, by rw [split, skipped]⟩
  · cases read

structure ReadersSound (steps : Nat) : Prop where
  value : ∀ levels cs draft rest, readValue steps (levels + 1) cs = (draft, some rest) →
    ∃ v front body, Blank front ∧ cs = front ++ body ++ rest ∧ Spelled levels v body ∧ Means draft v
  items : ∀ levels, (Lister.items levels).Reads steps
  members : ∀ levels, (Lister.members levels).Reads steps

section
variable {steps : Nat}

theorem read_item_sound (inner : ReadersSound steps) (levels : Nat) :
    (Lister.items levels).ReadsEntry steps := by
  intro done c cs draft rest solid read
  dsimp only [Lister.items, readItem] at read
  split at read
  · rename_i item left value
    obtain ⟨v, front, body, blank, split, spelled, means⟩ := inner.value levels (c :: cs) item left value
    -- An entry does not start with white space.
    have bare : front = [] := by
      cases front with
      | nil => rfl
      | cons d front =>
          cases split
          rw [blank c List.mem_cons_self] at solid
          cases solid
    exact ⟨item, v, body, left, by simpa [bare] using split, spelled, means, read⟩
  · cases read

theorem read_member_sound (inner : ReadersSound steps) (levels : Nat) :
    (Lister.members levels).ReadsEntry steps := by
  intro done c cs draft rest solid read
  dsimp only [Lister.members] at read
  by_cases quote : c = '"'
  · subst quote
    change readNamed steps (levels + 1) done cs = _ at read
    unfold readNamed at read
    split at read
    · cases read
    rename_i name behind text
    obtain ⟨key, split, named⟩ := (quoted_read_iff cs behind name).mp text
    split at read
    · cases read
    rename_i start colon
    obtain ⟨space, blank, split'⟩ := read_colon_sound behind start colon
    split at read
    · rename_i member left value
      obtain ⟨v, before, body, blank', split'', spelled, means⟩ :=
        inner.value levels start member left value
      refine ⟨(.text name, member), (name, v), _, left, ?_,
        .mk name v key space before body named blank blank' spelled, ⟨rfl, means⟩, read⟩
      rw [split, split', split'']
      simp
    · cases read
  · rw [read_member_unnamed steps (levels + 1) done c cs quote] at read
    cases read

theorem read_value_sound (inner : ReadersSound steps) (levels : Nat) (cs : List Char) (draft : Draft)
    (rest : List Char) (read : readValue (steps + 1) (levels + 1) cs = (draft, some rest)) :
    ∃ v front body, Blank front ∧ cs = front ++ body ++ rest ∧ Spelled levels v body ∧
      Means draft v := by
  obtain ⟨front, blank, split⟩ := skip_space_split cs
  cases skipped : skipSpace cs with
  | nil =>
      rw [read_value_nil steps (levels + 1) cs skipped] at read
      cases read
  | cons c text =>
      rw [read_value_cons steps (levels + 1) cs text c skipped] at read
      rw [skipped] at split
      split at read
      · rename_i array
        split at read
        · cases read
        obtain ⟨deeper, rfl⟩ : ∃ deeper, levels = deeper + 1 := ⟨levels - 1, by omega⟩
        obtain ⟨ds, as, inside, all, rfl, rfl, listed⟩ := inner.items deeper true [] text draft rest read
        refine ⟨.array as, front, _, blank, ?_, .array as inside listed, ?_⟩
        · rw [split, array]
          simp [Lister.items]
        · simpa [Lister.items, Listing.items] using array_means ds as all
      split at read
      · rename_i object
        split at read
        · cases read
        obtain ⟨deeper, rfl⟩ : ∃ deeper, levels = deeper + 1 := ⟨levels - 1, by omega⟩
        obtain ⟨ds, as, inside, all, rfl, rfl, listed⟩ :=
          inner.members deeper true [] text draft rest read
        refine ⟨.ofMembers as, front, _, blank, ?_, .object as inside listed, ?_⟩
        · rw [split, object]
          simp [Lister.members]
        · simpa [Lister.members, Listing.members] using object_means ds as all
      · obtain ⟨v, body, spelled, split', means⟩ := read_scalar_sound c text rest draft read
        refine ⟨v, front, body, blank, by rw [split, split', List.append_assoc], ?_, means⟩
        cases levels with
        | zero => exact spelled
        | succ levels => exact .scalar v body spelled

end

theorem readers_sound (steps : Nat) : ReadersSound steps := by
  induction steps with
  | zero =>
      exact ⟨fun _ _ _ _ read => (nomatch read), fun _ _ _ _ _ _ read => (nomatch read),
        fun _ _ _ _ _ _ read => (nomatch read)⟩
  | succ steps ih =>
      exact ⟨read_value_sound ih,
        fun levels => Lister.next_reads (items_sound levels) steps (read_item_sound ih levels)
          (ih.items levels),
        fun levels => Lister.next_reads (members_sound levels) steps (read_member_sound ih levels)
          (ih.members levels)⟩

def Taken (levels : Nat) : Prop :=
  ∀ v body, Spelled levels v body → ∀ steps, body.length < steps → ∀ rest, Ends rest →
    ∃ draft, Means draft v ∧ readValue steps (levels + 1) (body ++ rest) = (draft, some rest)

theorem read_value_past (steps depth : Nat) (front cs : List Char) (blank : Blank front) :
    readValue steps depth (front ++ cs) = readValue steps depth cs := by
  cases steps with
  | zero => rfl
  | succ steps =>
      have skipped : skipSpace (front ++ cs) = skipSpace cs := List.dropWhile_append_of_pos blank
      rw [readValue, readValue, skipped]

-- As `Taken`, for any spelling of values and any notion of what a draft means.
def TakenAs (means : Draft → Value → Prop) (spelled : Value → List Char → Prop) (levels : Nat) : Prop :=
  ∀ v body, spelled v body → ∀ steps, body.length < steps → ∀ rest, Ends rest →
    ∃ draft, means draft v ∧ readValue steps (levels + 1) (body ++ rest) = (draft, some rest)

section
variable {means : Draft → Value → Prop} {spelled : Value → List Char → Prop} {levels : Nat}

theorem item_taken_as (inner : TakenAs means spelled levels) (v : Value) (body : List Char)
    (item : spelled v body) (steps : Nat) (enough : body.length < steps) (done : List Draft)
    (rest : List Char) (ends : Ends rest) :
    ∃ draft, means draft v ∧ readItem steps (levels + 1) done (body ++ rest) =
      readItems steps (levels + 1) false (draft :: done) rest := by
  obtain ⟨draft, means, read⟩ := inner v body item steps enough rest ends
  refine ⟨draft, means, ?_⟩
  rw [readItem, read]

theorem member_taken_as (inner : TakenAs means spelled levels) (m : String × Value) (body : List Char)
    (member : MemberSpelled spelled m body) (steps : Nat) (enough : body.length < steps)
    (done : List (Draft × Draft)) (rest : List Char) (ends : Ends rest) :
    ∃ draft : Draft × Draft, (draft.1 = .text m.1 ∧ means draft.2 m.2) ∧
      readMember steps (levels + 1) done (body ++ rest) =
        readMembers steps (levels + 1) false (draft :: done) rest := by
  cases member with
  | mk name v key behind before body named space space' spelled =>
      simp only [List.length_append, List.length_cons] at enough
      obtain ⟨draft, means, read⟩ := inner v body spelled steps (by omega) rest ends
      have text := (quoted_read_iff _ (behind ++ ':' :: (before ++ (body ++ rest))) name).mpr
        ⟨key, rfl, named⟩
      have colon : readColon (behind ++ ':' :: (before ++ (body ++ rest))) =
          .ok (before ++ (body ++ rest)) := by
        unfold readColon
        rw [skip_space_past behind _ space ':' (by decide)]
        rfl
      refine ⟨(.text name, draft), ⟨rfl, means⟩, ?_⟩
      simp only [List.cons_append, List.append_assoc, readMember, readNamed, text, colon,
        read_value_past steps _ before _ space', read]

end

theorem array_opened (steps levels : Nat) (cs : List Char) :
    readValue (steps + 1) (levels + 2) ('[' :: cs) = readItems steps (levels + 1) true [] cs := by
  rw [read_value_cons _ _ _ cs '[' (skip_space_cons '[' _ (by decide)), if_pos rfl, if_neg (by omega)]
  rfl

theorem object_opened (steps levels : Nat) (cs : List Char) :
    readValue (steps + 1) (levels + 2) ('\x7b' :: cs) = readMembers steps (levels + 1) true [] cs := by
  rw [read_value_cons _ _ _ cs '\x7b' (skip_space_cons '\x7b' _ (by decide)), if_neg (by decide),
    if_pos rfl, if_neg (by omega)]
  rfl

theorem item_taken (levels : Nat) (inner : Taken levels) : (Lister.items levels).TakesEntry :=
  item_taken_as inner

theorem member_taken (levels : Nat) (inner : Taken levels) : (Lister.members levels).TakesEntry :=
  member_taken_as inner

theorem scalar_taken (levels : Nat) (v : Value) (body : List Char) (spelled : ScalarSpelled v body)
    (steps : Nat) (enough : body.length < steps) (rest : List Char) (ends : Ends rest) :
    ∃ draft, Means draft v ∧ readValue steps (levels + 1) (body ++ rest) = (draft, some rest) := by
  obtain ⟨draft, read, means⟩ := scalar_read v body spelled rest ends
  obtain ⟨c, text, rfl, starts, array, object⟩ := scalar_start v body spelled
  obtain ⟨fewer, rfl⟩ : ∃ fewer, steps = fewer + 1 := ⟨steps - 1, by omega⟩
  refine ⟨draft, means, ?_⟩
  rw [List.cons_append, read_value_cons fewer _ _ (text ++ rest) c
    (skip_space_cons c (text ++ rest) starts.solid), if_neg array,
    if_neg object]
  exact read

theorem value_taken (levels : Nat) : Taken levels := by
  induction levels with
  | zero => exact scalar_taken 0
  | succ levels ih =>
      intro v body spelled steps enough rest ends
      cases spelled with
      | scalar _ _ spelled => exact scalar_taken _ v body spelled steps enough rest ends
      | array items inside listed =>
          simp only [List.length_append, List.length_cons, List.length_nil] at enough
          obtain ⟨fewer, rfl⟩ : ∃ fewer, steps = fewer + 2 := ⟨steps - 2, by omega⟩
          obtain ⟨ds, all, read⟩ := Lister.listing_taken (items_sound levels) (item_taken levels ih)
            items inside listed fewer (by omega) rest
          refine ⟨_, array_means ds items all, ?_⟩
          simp only [List.cons_append, List.append_assoc, List.nil_append, array_opened]
          simpa [Lister.items, Listing.items] using read
      | object members inside listed =>
          simp only [List.length_append, List.length_cons, List.length_nil] at enough
          obtain ⟨fewer, rfl⟩ : ∃ fewer, steps = fewer + 2 := ⟨steps - 2, by omega⟩
          obtain ⟨ds, all, read⟩ := Lister.listing_taken (members_sound levels) (member_taken levels ih)
            members inside listed fewer (by omega) rest
          refine ⟨_, object_means ds members all, ?_⟩
          simp only [List.cons_append, List.append_assoc, List.nil_append, object_opened]
          simpa [Lister.members, Listing.members] using read

theorem read_text_spelled (cs : List Char) (v : Value) (read : Value.read (String.ofList cs) = .ok v) :
    JsonText v cs := by
  rw [value_read_of_list] at read
  cases reading : readValue (cs.length + 1) depthLimit cs with
  | mk draft left =>
      rw [reading] at read
      cases left with
      | none =>
          have faulty := (readers_settled (cs.length + 1)).value depthLimit cs
          rw [reading] at faulty
          obtain ⟨fault, failed⟩ := faulty rfl
          dsimp only at failed read
          rw [failed] at read
          cases read
      | some rest =>
          obtain ⟨w, front, body, blank, split, spelled, means⟩ :=
            (readers_sound _).value deepest cs draft rest reading
          obtain ⟨back, blank', split'⟩ := skip_space_split rest
          dsimp only at read
          rw [means] at read
          cases ended : skipSpace rest with
          | cons c rest =>
              rw [ended] at read
              cases read
          | nil =>
              rw [ended] at read split'
              cases read
              rw [split, split', List.append_nil]
              exact .mk front body back blank spelled blank'

theorem spelled_text_read (cs : List Char) (v : Value) (text : JsonText v cs) :
    Value.read (String.ofList cs) = .ok v := by
  obtain ⟨front, body, back, before, spelled, behind⟩ := text
  have ends : Ends back := by
    rw [← List.append_nil back]
    exact blank_ends back [] behind rfl
  obtain ⟨draft, means, read⟩ := value_taken deepest v body spelled ((front ++ body ++ back).length + 1)
    (by simp; omega) back ends
  rw [value_read_of_list, List.append_assoc, read_value_past _ _ front _ before,
    ← List.append_assoc]
  change readValue _ depthLimit _ = _ at read
  rw [read]
  dsimp only
  rw [means, skip_space_blank back behind]
  rfl

theorem value_read_iff (text : String) (v : Value) :
    Value.read text = .ok v ↔ JsonText v text.toList := by
  rw [← String.ofList_toList (s := text), String.toList_ofList]
  exact ⟨read_text_spelled text.toList v, spelled_text_read text.toList v⟩

end MarkdownServer.Json
