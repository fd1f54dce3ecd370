import MarkdownServer.Proofs.Json.Integers
import MarkdownServer.Proofs.Json.Members
/- Both forms of a value are spellings of it, so they read back. -/
set_option autoImplicit false

namespace MarkdownServer.Json

open Numeric (Double)

theorem control_unit (n : Nat) (control : n < 32) :
    HexUnit ['0', '0', Nat.digitChar (n / 16), Nat.digitChar (n % 16)] n where
  four := rfl
  hex := by
    have hex : ∀ k < 16, Text.isDigit 16 (Nat.digitChar k) = true := by decide
    simp only [List.forall_mem_cons]
    exact ⟨rfl, rfl, hex _ (by omega), hex _ (by omega), List.forall_mem_nil _⟩
  value := by
    have all : ∀ n < 32,
        Text.ofDigits 16 ['0', '0', Nat.digitChar (n / 16), Nat.digitChar (n % 16)] = n := by decide
    exact all n control

theorem escape_char_spelled (c : Char) : CharSpelled c (escapeChar c) := by
  have named (letter d : Char) (same : c = d) (known : (letter, d) ∈ escapeLetters) :
      CharSpelled c ['\\', letter] := same ▸ .named letter d known
  unfold escapeChar
  split_ifs with quote backslash backspace tab feed page back control
  · exact named '"' '"' quote (by decide)
  · exact named '\\' '\\' backslash (by decide)
  · exact named 'b' '\x08' backspace (by decide)
  · exact named 't' '\t' tab (by decide)
  · exact named 'n' '\n' feed (by decide)
  · exact named 'f' '\x0c' page (by decide)
  · exact named 'r' '\r' back (by decide)
  · have spelled := CharSpelled.numbered _ c.toNat (control_unit c.toNat control) (by omega)
    rwa [Char.ofNat_toNat] at spelled
  · exact .itself c (by omega) quote backslash

theorem escape_spelled (cs : List Char) : TextSpelled cs (cs.flatMap escapeChar) := by
  induction cs with
  | nil => exact .nil
  | cons c cs ih => exact .cons c cs _ _ (escape_char_spelled c) ih

def ReadsBack (x : Double) : Prop := readNumber (writeDouble x) = .ok (.double x, [])

theorem double_spelled (x : Double) (known : ReadsBack x) :
    ScalarSpelled (.number (.double x)) (writeDouble x) := by
  obtain ⟨l, sound, written, value⟩ := number_sound _ _ _ known
  rw [List.append_nil] at written
  exact written ▸ .number l sound (.double x) value

-- A value as JSON has it: whole numbers of 64 bits, with a sign or without one, and members in the
-- order of their names, of which no two are alike. Its arrays and objects are nested no deeper than
-- `levels`, and `known` holds for its doubles.
inductive Proper (known : Double → Prop) : Nat → Value → Prop where
  | null (levels : Nat) : Proper known levels .null
  | boolean (levels : Nat) (b : Bool) : Proper known levels (.boolean b)
  | text (levels : Nat) (s : String) : Proper known levels (.text s)
  | integer (levels : Nat) (i : Int) (low : -9223372036854775808 ≤ i)
      (high : i ≤ 18446744073709551615) :
      Proper known levels (.number (.integer i))
  | double (levels : Nat) (x : Double) (holds : known x) : Proper known levels (.number (.double x))
  | array (levels : Nat) (items : List Value) (each : ∀ v ∈ items, Proper known levels v) :
      Proper known (levels + 1) (.array items)
  | object (levels : Nat) (members : List (String × Value))
      (ascending : members.Pairwise fun m n => m.1 < n.1)
      (each : ∀ m ∈ members, Proper known levels m.2) : Proper known (levels + 1) (.object members)

theorem proper_sorted (known : Double → Prop) (levels : Nat) (v : Value)
    (proper : Proper known levels v) : v.sorted = v := by
  induction proper with
  | null | boolean | text | integer | double => rw [Value.sorted]
  | array levels items each ih =>
      rw [Value.sorted, sorted_items_map, List.map_congr_left ih, List.map_id']
  | object levels members ascending each ih =>
      have unchanged : ∀ m ∈ members, (m.1, m.2.sorted) = m := fun m member => by rw [ih m member]
      rw [sorted_object members ascending, List.map_congr_left unchanged, List.map_id']

theorem new_line_blank (level : Nat) : Blank (newLine level) := by
  intro c member
  rcases List.mem_cons.mp member with rfl | member
  · decide
  · rw [(List.mem_replicate.mp member).2]
    decide

theorem lines_listed {α : Type} (entry : α → List Char → Prop) (write : α → List Char)
    (more : List α → List Char) (line back : List Char) (blank : Blank line) (blank' : Blank back)
    (nil : more [] = []) (cons : ∀ a as, more (a :: as) = ',' :: line ++ write a ++ more as)
    (a : α) (as : List α) (each : ∀ b ∈ a :: as, entry b (write b)) :
    Listed entry (a :: as) (line ++ write a ++ more as ++ back) := by
  induction as generalizing a with
  | nil =>
      rw [nil, List.append_nil]
      exact .last a line (write a) back blank (each a List.mem_cons_self) blank'
  | cons b as ih =>
      have others := ih b fun c member => each c (List.mem_cons_of_mem a member)
      have listed := Listed.cons a b as line (write a) [] _ blank (each a List.mem_cons_self)
        (List.forall_mem_nil _) others
      rw [cons]
      simpa using listed

theorem scalar_spelled (levels : Nat) (v : Value) (body : List Char) (spelled : ScalarSpelled v body) :
    Spelled levels v body := by
  cases levels with
  | zero => exact spelled
  | succ levels => exact .scalar v body spelled

def writeMember (level : Nat) (m : String × Value) : List Char :=
  writeText m.1 ++ ':' :: [' '] ++ m.2.writePretty level

def writeCompactMember (m : String × Value) : List Char :=
  writeText m.1 ++ ':' :: [] ++ m.2.writeCompact

theorem member_spelled (inner : Value → List Char → Prop) (m : String × Value) (before body : List Char)
    (blank : Blank before) (spelled : inner m.2 body) :
    MemberSpelled inner m (writeText m.1 ++ ':' :: before ++ body) := by
  have made := MemberSpelled.mk m.1 m.2 _ [] before body (escape_spelled m.1.toList) (List.forall_mem_nil _)
    blank spelled
  simpa [writeText] using made

theorem write_members_cons (level : Nat) (m : String × Value) (rest : List (String × Value)) :
    writePrettyMembers level (m :: rest) =
      ',' :: newLine level ++ writeMember level m ++ writePrettyMembers level rest := by
  obtain ⟨name, v⟩ := m
  simp [writePrettyMembers, writeMember]

theorem write_compact_members_cons (m : String × Value) (rest : List (String × Value)) :
    writeCompactMembers (m :: rest) = ',' :: [] ++ writeCompactMember m ++ writeCompactMembers rest := by
  obtain ⟨name, v⟩ := m
  simp [writeCompactMembers, writeCompactMember]

theorem array_spelled (levels : Nat) (items : List Value) (level : Nat)
    (each : ∀ v ∈ items, Spelled levels v v.writeCompact ∧ ∀ level, Spelled levels v (v.writePretty level)) :
    Spelled (levels + 1) (.array items) (Value.array items).writeCompact ∧
      Spelled (levels + 1) (.array items) ((Value.array items).writePretty level) := by
  cases items with
  | nil =>
      have spelled : Spelled (levels + 1) (.array []) ['[', ']'] :=
        Nested.array [] [] (.none [] (List.forall_mem_nil _))
      exact ⟨by rwa [Value.writeCompact], by rwa [Value.writePretty]⟩
  | cons v rest =>
      have tight := lines_listed (Spelled levels) Value.writeCompact writeCompactItems [] []
        (List.forall_mem_nil _) (List.forall_mem_nil _) rfl (fun _ _ => rfl) v rest
        fun w member => (each w member).1
      have listed := lines_listed (Spelled levels) (Value.writePretty (level + 1))
        (writePrettyItems (level + 1)) (newLine (level + 1)) (newLine level) (new_line_blank _)
        (new_line_blank _) rfl (fun _ _ => rfl) v rest fun w member => (each w member).2 (level + 1)
      have tight : Spelled (levels + 1) _ _ := Nested.array (v :: rest) _ tight
      exact ⟨by simpa [Value.writeCompact] using tight, Nested.array (v :: rest) _ listed⟩

theorem object_spelled (levels : Nat) (members : List (String × Value)) (level : Nat)
    (each : ∀ m ∈ members,
      Spelled levels m.2 m.2.writeCompact ∧ ∀ level, Spelled levels m.2 (m.2.writePretty level)) :
    Spelled (levels + 1) (.ofMembers members) (Value.object members).writeCompact ∧
      Spelled (levels + 1) (.ofMembers members) ((Value.object members).writePretty level) := by
  cases members with
  | nil =>
      have spelled : Spelled (levels + 1) (.ofMembers []) ['\x7b', '\x7d'] :=
        Nested.object [] [] (.none [] (List.forall_mem_nil _))
      exact ⟨by rwa [Value.writeCompact], by rwa [Value.writePretty]⟩
  | cons m rest =>
      have blank : Blank [' '] := fun c member => by rw [List.mem_singleton.mp member]; decide
      have tight := lines_listed (MemberSpelled (Spelled levels)) writeCompactMember writeCompactMembers [] []
        (List.forall_mem_nil _) (List.forall_mem_nil _) rfl write_compact_members_cons m rest
        fun n member => member_spelled _ n [] _ (List.forall_mem_nil _) (each n member).1
      have listed := lines_listed (MemberSpelled (Spelled levels)) (writeMember (level + 1))
        (writePrettyMembers (level + 1)) (newLine (level + 1)) (newLine level) (new_line_blank _)
        (new_line_blank _) rfl (write_members_cons (level + 1)) m rest
        fun n member => member_spelled _ n [' '] _ blank ((each n member).2 (level + 1))
      have tight : Spelled (levels + 1) _ _ := Nested.object (m :: rest) _ tight
      have listed : Spelled (levels + 1) _ _ := Nested.object (m :: rest) _ listed
      obtain ⟨name, v⟩ := m
      exact ⟨by simpa [Value.writeCompact, writeCompactMember] using tight,
        by simpa [Value.writePretty, writeMember] using listed⟩

theorem forms_spelled (levels : Nat) (v : Value) (proper : Proper ReadsBack levels v) :
    Spelled levels v v.writeCompact ∧ ∀ level, Spelled levels v (v.writePretty level) := by
  have scalar (levels : Nat) (v : Value) (body : List Char) (compact : v.writeCompact = body)
      (pretty : ∀ level, v.writePretty level = body) (spelled : ScalarSpelled v body) :
      Spelled levels v v.writeCompact ∧ ∀ level, Spelled levels v (v.writePretty level) := by
    have spelled := scalar_spelled levels v body spelled
    exact ⟨by rwa [compact], fun level => by rwa [pretty]⟩
  induction proper with
  | null levels => exact scalar levels _ _ rfl (fun _ => rfl) .null
  | boolean levels b =>
      cases b with
      | true => exact scalar levels _ _ rfl (fun _ => rfl) .yes
      | false => exact scalar levels _ _ rfl (fun _ => rfl) .no
  | text levels s => exact scalar levels _ _ rfl (fun _ => rfl) (.text s _ (escape_spelled s.toList))
  | integer levels i low high =>
      have spelled := ScalarSpelled.number _ (integer_sound i) _ (integer_value i low high)
      rw [integer_written] at spelled
      exact scalar levels _ _ rfl (fun _ => rfl) spelled
  | double levels x holds => exact scalar levels _ _ rfl (fun _ => rfl) (double_spelled x holds)
  | array levels items each ih =>
      exact ⟨(array_spelled levels items 0 ih).1, fun level => (array_spelled levels items level ih).2⟩
  | object levels members ascending each ih =>
      have spelled (level : Nat) := object_spelled levels members level ih
      rw [of_members_ascending members ascending] at spelled
      exact ⟨(spelled 0).1, fun level => (spelled level).2⟩

theorem spelled_reads (v : Value) (cs : List Char) (spelled : Spelled deepest v cs) :
    Value.read (String.ofList cs) = .ok v := by
  rw [value_read_iff, String.toList_ofList]
  simpa using JsonText.mk [] cs [] (List.forall_mem_nil _) spelled (List.forall_mem_nil _)

theorem pretty_reads_back (v : Value) (proper : Proper ReadsBack deepest v) :
    Value.read v.pretty = .ok v :=
  spelled_reads v _ ((forms_spelled deepest v proper).2 0)

theorem object_reads_back (members : List (String × Value))
    (proper : ∀ m ∈ members, Proper ReadsBack (deepest - 1) m.2) :
    Value.read (Value.object members).compact = .ok (Value.object members).sorted := by
  have unchanged : ∀ m ∈ members, (m.1, m.2.sorted) = m := fun m member => by
    rw [proper_sorted _ _ m.2 (proper m member)]
  rw [Value.sorted, sorted_members_map, List.map_congr_left unchanged, List.map_id']
  exact spelled_reads _ _
    (object_spelled (deepest - 1) members 0 fun m member => forms_spelled _ m.2 (proper m member)).1

end MarkdownServer.Json
