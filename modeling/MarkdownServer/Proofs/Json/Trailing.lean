import MarkdownServer.Proofs.Json.Steps
import MarkdownServer.Protocol.Message
import MarkdownServer.Text.Blank
/- White space behind a message changes nothing, so a line may end in a carriage return. -/
set_option autoImplicit false

namespace MarkdownServer.Json

def Faulty (draft : Draft) : Prop := ∃ fault, draft.value = .error fault

theorem broken_faulty (fault : Fault) : Faulty (.broken fault) := ⟨fault, rfl⟩

theorem item_values_faulty (done : List Value) (items : List Draft) (item : Draft)
    (member : item ∈ items) (faulty : Faulty item) : ∃ fault, itemValues done items = .error fault := by
  induction items generalizing done with
  | nil => cases member
  | cons first items ih =>
      rw [itemValues]
      cases value : first.value with
      | error fault => exact ⟨fault, rfl⟩
      | ok v =>
          cases member with
          | head =>
              obtain ⟨fault, failed⟩ := faulty
              rw [value] at failed
              cases failed
          | tail _ later => exact ih (v :: done) later

theorem member_values_faulty (done : List (String × Value)) (members : List (Draft × Draft))
    (m : Draft × Draft) (member : m ∈ members) (faulty : Faulty m.2) :
    ∃ fault, memberValues done members = .error fault := by
  induction members generalizing done with
  | nil => cases member
  | cons first members ih =>
      obtain ⟨name, draft⟩ := first
      rw [memberValues.eq_def]
      cases value : draft.value with
      | error fault => exact ⟨fault, by simp [value]⟩
      | ok v =>
          cases member with
          | head =>
              obtain ⟨fault, failed⟩ := faulty
              rw [value] at failed
              cases failed
          | tail _ later =>
              dsimp only
              rw [value]
              cases name with
              | text name => exact ih (insertMember name v done) later
              | _ => exact ⟨_, rfl⟩

theorem array_faulty (items : List Draft) (stop : Option Fault)
    (broken : stop.isSome ∨ ∃ item ∈ items, Faulty item) : Faulty (.array items stop) := by
  unfold Faulty
  rw [Draft.value]
  cases values : itemValues [] items with
  | error fault => exact ⟨fault, rfl⟩
  | ok values' =>
      cases stop with
      | some fault => exact ⟨fault, rfl⟩
      | none =>
          obtain none | ⟨item, member, faulty⟩ := broken
          · cases none
          · obtain ⟨fault, failed⟩ := item_values_faulty [] items item member faulty
            rw [values] at failed
            cases failed

theorem object_faulty (members : List (Draft × Draft)) (stop : Option Fault)
    (broken : stop.isSome ∨ ∃ m ∈ members, Faulty m.2) : Faulty (.object members stop) := by
  unfold Faulty
  rw [Draft.value]
  cases values : memberValues [] members with
  | error fault => exact ⟨fault, rfl⟩
  | ok values' =>
      cases stop with
      | some fault => exact ⟨fault, rfl⟩
      | none =>
          obtain none | ⟨m, member, faulty⟩ := broken
          · cases none
          · obtain ⟨fault, failed⟩ := member_values_faulty [] members m member faulty
            rw [values] at failed
            cases failed

theorem array_stopped (items : List Draft) (fault : Fault) : Faulty (.array items (some fault)) :=
  array_faulty items (some fault) (.inl rfl)

theorem object_stopped (members : List (Draft × Draft)) (fault : Fault) :
    Faulty (.object members (some fault)) :=
  object_faulty members (some fault) (.inl rfl)

theorem array_last_faulty (done : List Draft) (item : Draft) (faulty : Faulty item) :
    Faulty (.array (item :: done).reverse none) :=
  array_faulty _ none (.inr ⟨item, by simp, faulty⟩)

theorem object_last_faulty (done : List (Draft × Draft)) (name value : Draft) (faulty : Faulty value) :
    Faulty (.object ((name, value) :: done).reverse none) :=
  object_faulty _ none (.inr ⟨(name, value), by simp, faulty⟩)

-- A reading that leaves no rest has met a fault.
def Settled (reading : Reading) : Prop := reading.2 = none → Faulty reading.1

theorem settled_read (draft : Draft) (rest : List Char) : Settled (draft, some rest) :=
  fun stopped => nomatch stopped

theorem settled_stopped (draft : Draft) (faulty : Faulty draft) : Settled (draft, none) :=
  fun _ => faulty

theorem of_except_settled (result : Except Fault (Draft × List Char)) :
    Settled (Reading.ofExcept result) := by
  cases result with
  | ok value => exact settled_read _ _
  | error fault => exact settled_stopped _ (broken_faulty fault)

theorem listing_settled (listing : Listing) (entry : List Char → Reading) (first : Bool)
    (cs : List Char) (stopped : ∀ fault, Faulty (listing.made (some fault)))
    (each : ∀ c rest, Settled (entry (c :: rest))) : Settled (listing.read entry first cs) := by
  cases cs with
  | nil => exact settled_stopped _ (stopped _)
  | cons c rest =>
      dsimp only [Listing.read]
      split
      · exact settled_read _ _
      split
      · exact each c rest
      split
      · split
        · exact settled_stopped _ (stopped _)
        split
        · exact settled_stopped _ (stopped _)
        · exact each _ _
      · exact settled_stopped _ (stopped _)

structure ReadersSettled (steps : Nat) : Prop where
  value : ∀ depth cs, Settled (readValue steps depth cs)
  items : ∀ depth first done cs, Settled (readItems steps depth first done cs)
  members : ∀ depth first done cs, Settled (readMembers steps depth first done cs)

section
variable {steps : Nat}

theorem read_value_settled (inner : ReadersSettled steps) (depth : Nat) (cs : List Char) :
    Settled (readValue (steps + 1) depth cs) := by
  cases skipped : skipSpace cs with
  | nil =>
      rw [read_value_nil steps depth cs skipped]
      exact settled_stopped _ (broken_faulty _)
  | cons c rest =>
      rw [read_value_cons steps depth cs rest c skipped]
      split
      · split
        · exact settled_stopped _ (array_stopped _ _)
        · exact inner.items (depth - 1) true [] rest
      split
      · split
        · exact settled_stopped _ (object_stopped _ _)
        · exact inner.members (depth - 1) true [] rest
      · rw [read_scalar_cons]
        exact of_except_settled _

theorem read_item_settled (inner : ReadersSettled steps) (depth : Nat) (done : List Draft)
    (cs : List Char) : Settled (readItem steps depth done cs) := by
  have value := inner.value depth cs
  unfold readItem
  split
  · exact inner.items depth false _ _
  · rename_i draft read
    rw [read] at value
    exact settled_stopped _ (array_last_faulty done draft (value rfl))

theorem read_named_settled (inner : ReadersSettled steps) (depth : Nat) (done : List (Draft × Draft))
    (cs : List Char) : Settled (readNamed steps depth done cs) := by
  unfold readNamed
  split
  · exact settled_stopped _ (object_last_faulty done _ _ (broken_faulty _))
  split
  · exact settled_stopped _ (object_last_faulty done _ _ (broken_faulty _))
  rename_i start _
  have value := inner.value depth start
  split
  · exact inner.members depth false _ _
  · rename_i draft read
    rw [read] at value
    exact settled_stopped _ (object_last_faulty done _ draft (value rfl))

theorem read_member_settled (inner : ReadersSettled steps) (depth : Nat) (done : List (Draft × Draft))
    (c : Char) (cs : List Char) : Settled (readMember steps depth done (c :: cs)) := by
  by_cases quote : c = '"'
  · subst quote
    exact read_named_settled inner depth done cs
  · rw [read_member_unnamed steps depth done c cs quote]
    exact settled_stopped _ (object_last_faulty done _ _ (broken_faulty _))

end

theorem readers_settled (steps : Nat) : ReadersSettled steps := by
  induction steps with
  | zero =>
      exact ⟨fun _ _ => settled_stopped _ (broken_faulty _),
        fun _ _ _ _ => settled_stopped _ (array_stopped _ _),
        fun _ _ _ _ => settled_stopped _ (object_stopped _ _)⟩
  | succ steps ih =>
      refine ⟨read_value_settled ih, fun depth first done cs => ?_, fun depth first done cs => ?_⟩
      · rw [read_items_listing]
        exact listing_settled _ _ first _ (array_stopped _) fun c rest =>
          read_item_settled ih depth done (c :: rest)
      · rw [read_members_listing]
        exact listing_settled _ _ first _ (object_stopped _) fun c rest =>
          read_member_settled ih depth done c rest

theorem value_read_of_list (cs : List Char) :
    Value.read (String.ofList cs) =
      match readValue (cs.length + 1) depthLimit cs with
      | (draft, some rest) => draft.value >>= fun v =>
          if (skipSpace rest).isEmpty then .ok v else .error .trailingCharacters
      | (draft, none) => draft.value := by
  unfold Value.read Draft.read
  rw [String.toList_ofList]
  dsimp only
  generalize readValue (cs.length + 1) depthLimit cs = reading
  obtain ⟨draft, left⟩ := reading
  cases left with
  | none =>
      dsimp only
      cases draft.value <;> rfl
  | some rest =>
      dsimp only
      cases draft.value with
      | error fault => rfl
      | ok v => cases (skipSpace rest).isEmpty <;> rfl

theorem value_read_trailing (cs tail : List Char) (blank : Blank tail) :
    Value.read (String.ofList (cs ++ tail)) = Value.read (String.ofList cs) ∨
      ∃ fault other, Value.read (String.ofList (cs ++ tail)) = .error fault ∧
        Value.read (String.ofList cs) = .error other := by
  rw [value_read_of_list, value_read_of_list]
  have extended := (readers_extended tail blank ((cs ++ tail).length + 1)).value depthLimit cs
  generalize later : readValue ((cs ++ tail).length + 1) depthLimit (cs ++ tail) = after at extended ⊢
  generalize here : readValue ((cs ++ tail).length + 1) depthLimit cs = before at extended
  have long : cs.length ≤ (cs ++ tail).length := by simp
  cases extended with
  | read draft rest =>
      obtain ⟨_, enough⟩ := (readers_lasting _).value depthLimit cs draft rest here
      have shorter : readValue (cs.length + 1) depthLimit cs = (draft, some rest) := enough _ (by omega)
      rw [shorter]
      left
      dsimp only
      rw [skip_space_append rest tail blank]
      cases skipSpace rest with
      | nil => rfl
      | cons c rest => rfl
  | fails draft other =>
      right
      have faulty := (readers_settled ((cs ++ tail).length + 1)).value depthLimit (cs ++ tail)
      rw [later] at faulty
      obtain ⟨fault, failed⟩ := faulty rfl
      cases read : readValue (cs.length + 1) depthLimit cs with
      | mk first rest =>
          cases rest with
          | some rest =>
              obtain ⟨_, enough⟩ := (readers_lasting _).value depthLimit cs first rest read
              have longer : readValue ((cs ++ tail).length + 1) depthLimit cs = (first, some rest) :=
                enough _ (by omega)
              rw [longer] at here
              cases here
          | none =>
              have faulty := (readers_settled (cs.length + 1)).value depthLimit cs
              rw [read] at faulty
              obtain ⟨fault', failed'⟩ := faulty rfl
              exact ⟨fault, fault', failed, failed'⟩

theorem blank_not_digit (c : Char) (blank : Text.isBlank c = true) : c.isDigit = false := by
  cases digit : c.isDigit with
  | false => rfl
  | true =>
      simp only [Char.isDigit, Bool.and_eq_true, decide_eq_true_eq] at digit
      have low : 48 ≤ c.toNat := UInt32.le_iff_toNat_le.mp digit.1
      have high : c.toNat ≤ 57 := UInt32.le_iff_toNat_le.mp digit.2
      simp only [Text.isBlank, Bool.or_eq_true, Bool.and_eq_true, decide_eq_true_eq, beq_iff_eq] at blank
      omega

theorem value_read_blank (text : String) (blank : Text.allBlank text = true) :
    ∃ fault, Value.read text = .error fault := by
  have skipped : ∀ c ∈ skipSpace text.toList, Text.isBlank c = true := fun c member =>
    List.all_eq_true.mp blank c ((List.dropWhile_sublist _).mem member)
  rw [← String.ofList_toList (s := text), value_read_of_list]
  cases start : skipSpace text.toList with
  | nil =>
      rw [read_value_nil _ _ _ start]
      exact ⟨_, rfl⟩
  | cons c rest =>
      have space : Text.isBlank c = true := skipped c (by simp [start])
      have other (d : Char) (solid : Text.isBlank d = false) : c ≠ d := by
        rintro rfl
        rw [space] at solid
        cases solid
      have number : ¬ ((decide (c = '-') || c.isDigit) = true) := by
        simp [other '-' (by decide), blank_not_digit c space]
      rw [read_value_cons _ _ _ rest c start, if_neg (other _ (by decide)),
        if_neg (other _ (by decide)), read_scalar_cons, if_neg (other _ (by decide)),
        if_neg (other _ (by decide)), if_neg (other _ (by decide)), if_neg (other _ (by decide)),
        if_neg number]
      exact ⟨_, rfl⟩

end MarkdownServer.Json

namespace MarkdownServer.Protocol

theorem parse_trailing (cs tail : List Char) (blank : Json.Blank tail) :
    Message.parse (String.ofList (cs ++ tail)) = Message.parse (String.ofList cs) := by
  unfold Message.parse
  obtain same | ⟨fault, other, later, here⟩ := Json.value_read_trailing cs tail blank
  · rw [same]
  · rw [later, here]

theorem parse_blank (text : String) (blank : Text.allBlank text = true) :
    Message.parse text = .error .notJson := by
  obtain ⟨fault, failed⟩ := Json.value_read_blank text blank
  unfold Message.parse
  rw [failed]

end MarkdownServer.Protocol
