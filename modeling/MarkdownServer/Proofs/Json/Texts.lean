import MarkdownServer.Proofs.Json.Grammar
/- The reader of texts takes just the spellings of texts. -/
set_option autoImplicit false

namespace MarkdownServer.Json

theorem hex_digit_small (c : Char) (digit : Text.isDigit 16 c = true) : c.utf8Size = 1 := by
  have bounded (d : Char) (below : c ≤ d) (small : d.toNat ≤ 127) : c.utf8Size = 1 := by
    have order : c.toNat ≤ d.toNat := UInt32.le_iff_toNat_le.mp below
    have low : c.toNat ≤ 127 := Nat.le_trans order small
    exact Char.utf8Size_eq_one_iff.mpr (UInt32.le_iff_toNat_le.mpr low)
  unfold Text.isDigit Text.digit? at digit
  dsimp only at digit
  split at digit
  · rename_i decimal
    exact bounded '9' (by simp_all) (by decide)
  split at digit
  · rename_i lower
    exact bounded 'f' (by simp_all) (by decide)
  split at digit
  · rename_i upper
    exact bounded 'F' (by simp_all) (by decide)
  · simp at digit

theorem sizes_of_hex (digits : List Char) (start : Nat) (hex : ∀ d ∈ digits, Text.isDigit 16 d = true) :
    digits.foldl (fun n c => n + c.utf8Size) start = start + digits.length := by
  induction digits generalizing start with
  | nil => rfl
  | cons d digits ih =>
      obtain ⟨first, others⟩ := List.forall_mem_cons.mp hex
      rw [List.foldl_cons, hex_digit_small d first, ih (start + 1) others, List.length_cons]
      omega

theorem escape_full_iff (digits : List Char) (hex : ∀ d ∈ digits, Text.isDigit 16 d = true) :
    escapeIsFull digits = true ↔ 4 ≤ digits.length := by
  unfold escapeIsFull
  rw [sizes_of_hex digits 0 hex, decide_eq_true_eq, Nat.zero_add]

theorem hex_number_some (digits : List Char) (n : Nat) :
    hexNumber? digits = some n ↔
      (∀ d ∈ digits, Text.isDigit 16 d = true) ∧ Text.ofDigits 16 digits = n := by
  simp [hexNumber?]

theorem full_escape_unit (c : Char) (read : List Char) (n : Nat) (few : escapeIsFull read = false)
    (full : escapeIsFull (c :: read) = true) (number : hexNumber? (c :: read).reverse = some n) :
    HexUnit (c :: read).reverse n := by
  obtain ⟨hex, value⟩ := (hex_number_some _ n).mp number
  have all : ∀ d ∈ c :: read, Text.isDigit 16 d = true := fun d member => hex d (List.mem_reverse.mpr member)
  have enough := (escape_full_iff _ all).mp full
  have before : ¬ 4 ≤ read.length := fun long => by
    have full := (escape_full_iff read fun d member => all d (List.mem_cons_of_mem c member)).mpr long
    rw [few] at full
    cases full
  rw [List.length_cons] at enough
  refine ⟨?_, hex, value⟩
  rw [List.length_reverse, List.length_cons]
  omega

-- The part of a character that was read when a reader is in some state.
inductive Pending : TextState → List Char → Prop where
  | plain : Pending .plain []
  | escaped : Pending .escaped ['\\']
  | digits (read : List Char) (few : escapeIsFull read = false) :
      Pending (.digits none read) ('\\' :: 'u' :: read.reverse)
  | paired (high : List Char) (h : Nat) (unit : HexUnit high h) (first : 0xD800 ≤ h ∧ h ≤ 0xDBFF) :
      Pending (.paired h) ('\\' :: 'u' :: high)
  | pairedEscaped (high : List Char) (h : Nat) (unit : HexUnit high h)
      (first : 0xD800 ≤ h ∧ h ≤ 0xDBFF) : Pending (.pairedEscaped h) ('\\' :: 'u' :: high ++ ['\\'])
  | pairedDigits (high : List Char) (h : Nat) (unit : HexUnit high h) (first : 0xD800 ≤ h ∧ h ≤ 0xDBFF)
      (read : List Char) (few : escapeIsFull read = false) :
      Pending (.digits (some h) read) ('\\' :: 'u' :: high ++ '\\' :: 'u' :: read.reverse)

def Closes (done cs rest : List Char) (s : String) : Prop :=
  ∃ chars inside, cs = inside ++ '"' :: rest ∧ TextSpelled chars inside ∧
    s.toList = done.reverse ++ chars

theorem closes_cons (e : Char) (done spelled cs rest : List Char) (s : String)
    (character : CharSpelled e spelled) (closes : Closes (e :: done) cs rest s) :
    Closes done (spelled ++ cs) rest s := by
  obtain ⟨chars, inside, rfl, inner, text⟩ := closes
  exact ⟨e :: chars, spelled ++ inside, by simp, .cons e chars spelled inside character inner,
    by simp [text]⟩

theorem close_first (read : List Char) (meant : Char ⊕ Nat) (closed : closeEscape none read = .ok meant) :
    ∃ n, hexNumber? read.reverse = some n ∧
      ((¬ (0xD800 ≤ n ∧ n ≤ 0xDFFF) ∧ meant = .inl (.ofNat n)) ∨
        (0xD800 ≤ n ∧ n ≤ 0xDBFF ∧ meant = .inr n)) := by
  unfold closeEscape at closed
  cases number : hexNumber? read.reverse with
  | none =>
      rw [number] at closed
      cases closed
  | some n =>
      rw [number] at closed
      refine ⟨n, rfl, ?_⟩
      dsimp only at closed
      split at closed
      · cases closed
      rename_i low
      simp only [Bool.and_eq_true, decide_eq_true_eq] at low
      split at closed
      · rename_i high
        simp only [Bool.and_eq_true, decide_eq_true_eq] at high
        cases closed
        exact .inr ⟨high.1, high.2, rfl⟩
      · rename_i high
        simp only [Bool.and_eq_true, decide_eq_true_eq] at high
        cases closed
        exact .inl ⟨by omega, rfl⟩

theorem close_second (h : Nat) (read : List Char) (meant : Char ⊕ Nat)
    (closed : closeEscape (some h) read = .ok meant) :
    ∃ l, hexNumber? read.reverse = some l ∧ (0xDC00 ≤ l ∧ l ≤ 0xDFFF) ∧
      meant = .inl (.ofNat (0x10000 + (h - 0xD800) * 0x400 + (l - 0xDC00))) := by
  unfold closeEscape at closed
  cases number : hexNumber? read.reverse with
  | none =>
      rw [number] at closed
      cases closed
  | some l =>
      rw [number] at closed
      dsimp only at closed
      split at closed
      · rename_i low
        simp only [Bool.and_eq_true, decide_eq_true_eq] at low
        cases closed
        exact ⟨l, rfl, low, rfl⟩
      · cases closed

theorem escape_known (letter c : Char) : escape? letter = some c ↔ (letter, c) ∈ escapeLetters := by
  simp only [escape?, escapeLetters, List.mem_cons, Prod.mk.injEq, List.not_mem_nil, or_false]
  grind

-- Whatever was read in front of these characters, they end a text that it starts.
def ReadsOn (cs rest : List Char) (s : String) : Prop :=
  ∀ state done before, Pending state before → readText state done cs = .ok (s, rest) →
    Closes done (before ++ cs) rest s

section
variable {cs rest : List Char} {s : String}

theorem plain_sound (inner : ReadsOn cs rest s) (c : Char) (done : List Char)
    (read : readText .plain done (c :: cs) = .ok (s, rest)) : Closes done (c :: cs) rest s := by
  simp only [readText] at read
  split at read
  · rename_i quote
    cases read
    exact ⟨[], [], by simp [quote], .nil, by simp⟩
  rename_i quote
  split at read
  · rename_i backslash
    subst backslash
    exact inner .escaped done ['\\'] .escaped read
  rename_i backslash
  split at read
  · cases read
  · rename_i visible
    have closes := inner .plain (c :: done) [] .plain read
    exact closes_cons c done [c] cs rest s (.itself c (by omega) quote backslash) closes

theorem escaped_sound (inner : ReadsOn cs rest s) (c : Char) (done : List Char)
    (read : readText .escaped done (c :: cs) = .ok (s, rest)) : Closes done ('\\' :: c :: cs) rest s := by
  simp only [readText] at read
  split at read
  · rename_i unicode
    subst unicode
    exact inner (.digits none []) done ['\\', 'u'] (.digits [] rfl) read
  cases known : escape? c with
  | none =>
      rw [known] at read
      cases read
  | some e =>
      rw [known] at read
      have closes := inner .plain (e :: done) [] .plain read
      exact closes_cons e done ['\\', c] cs rest s (.named c e ((escape_known c e).mp known)) closes

theorem digits_sound (inner : ReadsOn cs rest s) (c : Char) (done digits : List Char)
    (few : escapeIsFull digits = false)
    (read : readText (.digits none digits) done (c :: cs) = .ok (s, rest)) :
    Closes done ('\\' :: 'u' :: (c :: digits).reverse ++ cs) rest s := by
  simp only [readText] at read
  split at read
  · rename_i full
    cases closed : closeEscape none (c :: digits) with
    | error fault =>
        rw [closed] at read
        cases read
    | ok meant =>
        rw [closed] at read
        obtain ⟨n, number, outcome⟩ := close_first _ meant closed
        have unit := full_escape_unit c digits n few full number
        obtain ⟨single, rfl⟩ | ⟨low, high, rfl⟩ := outcome
        · have closes := inner .plain (.ofNat n :: done) [] .plain read
          exact closes_cons _ done _ cs rest s (.numbered _ n unit single) closes
        · exact inner (.paired n) done _ (.paired _ n unit ⟨low, high⟩) read
  · rename_i few
    exact inner _ done _ (.digits (c :: digits) (by simpa using few)) read

theorem paired_digits_sound (inner : ReadsOn cs rest s) (c : Char) (done high digits : List Char) (h : Nat)
    (unit : HexUnit high h) (first : 0xD800 ≤ h ∧ h ≤ 0xDBFF) (few : escapeIsFull digits = false)
    (read : readText (.digits (some h) digits) done (c :: cs) = .ok (s, rest)) :
    Closes done ('\\' :: 'u' :: high ++ '\\' :: 'u' :: (c :: digits).reverse ++ cs) rest s := by
  simp only [readText] at read
  split at read
  · rename_i full
    cases closed : closeEscape (some h) (c :: digits) with
    | error fault =>
        rw [closed] at read
        cases read
    | ok meant =>
        rw [closed] at read
        obtain ⟨l, number, second, rfl⟩ := close_second h _ meant closed
        have unit' := full_escape_unit c digits l few full number
        have closes := inner .plain (.ofNat _ :: done) [] .plain read
        exact closes_cons _ done _ cs rest s (.paired high _ h l unit unit' first second) closes
  · rename_i few
    exact inner _ done _ (.pairedDigits high h unit first (c :: digits) (by simpa using few)) read

end

theorem read_text_sound (cs rest : List Char) (s : String) : ReadsOn cs rest s := by
  induction cs with
  | nil => exact fun _ _ _ _ read => nomatch read
  | cons c cs ih =>
      intro state done before pending read
      cases pending with
      | plain => exact plain_sound ih c done read
      | escaped => exact escaped_sound ih c done read
      | digits digits few => simpa using digits_sound ih c done digits few read
      | paired high h unit first =>
          simp only [readText] at read
          split at read
          · rename_i backslash
            subst backslash
            have closes := ih _ done _ (.pairedEscaped high h unit first) read
            simpa using closes
          · cases read
      | pairedEscaped high h unit first =>
          simp only [readText] at read
          split at read
          · rename_i unicode
            subst unicode
            have closes := ih _ done _ (.pairedDigits high h unit first [] rfl) read
            simpa using closes
          · cases read
      | pairedDigits high h unit first digits few =>
          simpa using paired_digits_sound ih c done high digits h unit first few read

theorem hex_unit_number (digits : List Char) (n : Nat) (unit : HexUnit digits n) :
    hexNumber? digits.reverse.reverse = some n := by
  rw [List.reverse_reverse]
  exact (hex_number_some digits n).mpr ⟨unit.hex, unit.value⟩

theorem escape_opened (done cs : List Char) :
    readText .plain done ('\\' :: 'u' :: cs) = readText (.digits none []) done cs := rfl

theorem pair_opened (h : Nat) (done cs : List Char) :
    readText (.paired h) done ('\\' :: 'u' :: cs) = readText (.digits (some h) []) done cs := rfl

theorem four_characters (cs : List Char) (four : cs.length = 4) : ∃ a b c d, cs = [a, b, c, d] :=
  match cs, four with
  | [a, b, c, d], _ => ⟨a, b, c, d, rfl⟩

theorem hex_unit_read (digits : List Char) (n : Nat) (unit : HexUnit digits n) (high : Option Nat)
    (done tail : List Char) :
    readText (.digits high []) done (digits ++ tail) =
      match closeEscape high digits.reverse with
      | .error fault => .error fault
      | .ok (.inl e) => readText .plain (e :: done) tail
      | .ok (.inr h) => readText (.paired h) done tail := by
  obtain ⟨a, b, c, d, rfl⟩ := four_characters digits unit.four
  have part (few : List Char) (short : few.length < 4) (within : ∀ x ∈ few, x ∈ [a, b, c, d]) :
      ¬ escapeIsFull few = true := by
    rw [escape_full_iff few fun x member => unit.hex x (within x member)]
    omega
  have full : escapeIsFull [d, c, b, a] = true :=
    (escape_full_iff _ fun x member => unit.hex x (by simpa [or_comm, or_left_comm] using member)).mpr
      (Nat.le_refl 4)
  simp only [List.cons_append, List.nil_append, readText]
  rw [if_neg (part [a] (by simp) (by simp)), if_neg (part [b, a] (by simp) (by simp)),
    if_neg (part [c, b, a] (by simp) (by simp)), if_pos full]
  rfl

theorem character_read (c : Char) (spelled : List Char) (character : CharSpelled c spelled)
    (done tail : List Char) :
    readText .plain done (spelled ++ tail) = readText .plain (c :: done) tail := by
  cases character with
  | itself _ visible quote backslash =>
      simp only [List.cons_append, List.nil_append, readText]
      rw [if_neg quote, if_neg backslash, if_neg (by omega)]
  | named letter _ known =>
      have escape := (escape_known letter c).mpr known
      have other : letter ≠ 'u' := by
        rintro rfl
        cases escape
      simp [readText, other, escape]
  | numbered digits n unit single =>
      have closed : closeEscape none digits.reverse = .ok (.inl (.ofNat n)) := by
        unfold closeEscape
        rw [hex_unit_number digits n unit]
        dsimp only
        rw [if_neg (by simp; omega), if_neg (by simp; omega)]
      simp only [List.cons_append]
      rw [escape_opened, hex_unit_read digits n unit, closed]
  | paired high low h l upper lower first second =>
      have opened : closeEscape none high.reverse = .ok (.inr h) := by
        unfold closeEscape
        rw [hex_unit_number high h upper]
        dsimp only
        rw [if_neg (by simp; omega), if_pos (by simpa using first)]
      have closed : closeEscape (some h) low.reverse =
          .ok (.inl (.ofNat (0x10000 + (h - 0xD800) * 0x400 + (l - 0xDC00)))) := by
        unfold closeEscape
        rw [hex_unit_number low l lower]
        dsimp only
        rw [if_pos (by simpa using second)]
      simp only [List.cons_append, List.append_assoc]
      rw [escape_opened, hex_unit_read high h upper, opened]
      dsimp only
      rw [pair_opened, hex_unit_read low l lower, closed]

theorem text_read (chars inside : List Char) (spelled : TextSpelled chars inside)
    (done rest : List Char) :
    readText .plain done (inside ++ '"' :: rest) =
      .ok (String.ofList (done.reverse ++ chars), rest) := by
  induction spelled generalizing done with
  | nil => simp [readText]
  | cons c cs spelled more character _ ih =>
      rw [List.append_assoc, character_read c spelled character, ih (c :: done)]
      simp

theorem quoted_read_iff (cs rest : List Char) (s : String) :
    readText .plain [] cs = .ok (s, rest) ↔
      ∃ inside, cs = inside ++ '"' :: rest ∧ TextSpelled s.toList inside := by
  constructor
  · intro read
    obtain ⟨chars, inside, split, spelled, text⟩ := read_text_sound cs rest s .plain [] [] .plain read
    exact ⟨inside, split, by rw [text]; exact spelled⟩
  · rintro ⟨inside, rfl, spelled⟩
    rw [text_read s.toList inside spelled]
    simp

end MarkdownServer.Json
